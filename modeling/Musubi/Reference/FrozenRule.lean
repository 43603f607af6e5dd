/-
# The frozen rule and the order of its input

`apply_frozen_fields_rule` sorts the places of a channel's observations by time and marks some of
them.  What it marks depends on the observations of the channel alone, and, where their times are
distinct, not on the order in which they are given: the places are names, and nothing of the loop
depends on a name.

This is a parametricity argument made by hand.  Section 1 runs the loop on entries with arbitrary
names and shows that renaming commutes with it; sections 2 and 3 choose the renamings, to the
places within a channel and to the observations themselves.  With equal times the second one
fails, since the sort then goes by place.
-/
import Mathlib.Data.List.Pairwise
import Musubi.Reference.Absence

namespace Musubi.Reference

open Lib

variable {ι κ : Type} (sha256 : List UInt8 → Digest)
variable (channel : ChannelId) (frozenMs : UInt64) (names : Option (List String))

/-! ## 1. The loop with any names for the places -/

/-- The entries that the loop marks. -/
def markedFrom : Option Int64 → Option Digest → List (Observation × ι) → List (Observation × ι)
  | _, _, [] => []
  | startT, digest, entry :: entries =>
    match frozenDigest sha256 channel names entry.1 with
    | none => markedFrom none none entries
    | some d =>
      if digest = some d then
        if frozenAt frozenMs startT entry.1.tMs then
          entry :: markedFrom startT digest entries
        else markedFrom startT digest entries
      else markedFrom (some entry.1.tMs) (some d) entries

variable {sha256 channel frozenMs names}

theorem markedFrom_sublist (entries : List (Observation × ι)) :
    ∀ startT digest,
      (markedFrom sha256 channel frozenMs names startT digest entries).Sublist entries := by
  induction entries with
  | nil =>
    intro startT digest
    exact List.Sublist.slnil
  | cons entry entries ih =>
    intro startT digest
    unfold markedFrom
    split
    · exact (ih _ _).cons entry
    · split
      · split
        · exact (ih _ _).cons_cons entry
        · exact (ih _ _).cons entry
      · exact (ih _ _).cons entry

/-- The loop does not look at the names that entries go by, only at their observations. -/
theorem markedFrom_map (g : ι → κ) (entries : List (Observation × ι)) :
    ∀ startT digest,
      markedFrom sha256 channel frozenMs names startT digest (entries.map (Prod.map id g)) =
        (markedFrom sha256 channel frozenMs names startT digest entries).map (Prod.map id g) := by
  induction entries with
  | nil =>
    intro startT digest
    rfl
  | cons entry entries ih =>
    intro startT digest
    rw [List.map_cons, markedFrom, markedFrom]
    simp only [Prod.map_fst, id_eq]
    split
    · exact ih _ _
    · split
      · split
        · rw [List.map_cons, ih]
        · exact ih _ _
      · exact ih _ _

/-- The places the loop collects are those of the marked entries. -/
theorem mem_stale_foldl (i : ℕ) (entries : List (Observation × ℕ)) :
    ∀ run : FrozenRun,
      i ∈ (entries.foldl (frozenStep sha256 channel frozenMs names) run).stale ↔
        i ∈ run.stale ∨
          i ∈ (markedFrom sha256 channel frozenMs names run.startT run.digest entries).map
            Prod.snd := by
  induction entries with
  | nil =>
    intro run
    simp [markedFrom]
  | cons entry entries ih =>
    intro run
    rw [List.foldl_cons, ih, markedFrom, frozenStep]
    cases frozenDigest sha256 channel names entry.1 with
    | none => rfl
    | some d =>
      by_cases hd : run.digest = some d
      · by_cases ht : frozenAt frozenMs run.startT entry.1.tMs = true
        · simp only [hd, ht, if_true, List.mem_cons, List.map_cons]
          constructor
          · rintro ((h | h) | h)
            · exact Or.inr (Or.inl h)
            · exact Or.inl h
            · exact Or.inr (Or.inr h)
          · rintro (h | h | h)
            · exact Or.inl (Or.inr h)
            · exact Or.inl (Or.inl h)
            · exact Or.inr h
        · simp only [hd, ht, if_true, if_false, Bool.false_eq_true]
      · simp only [hd, if_false]

variable (sha256 channel frozenMs names)

def sortEntries (entries : List (Observation × ι)) : List (Observation × ι) :=
  entries.insertionSort fun a b => a.1.tMs ≤ b.1.tMs

def markedOf (entries : List (Observation × ι)) : List (Observation × ι) :=
  markedFrom sha256 channel frozenMs names none none (sortEntries entries)

def markIf (marked : Prop) [Decidable marked] (o : Observation) : Observation :=
  if marked then { o with stale := true } else o

variable {sha256 channel frozenMs names}

@[simp] theorem markIf_channel (p : Prop) [Decidable p] (o : Observation) :
    (markIf p o).channel = o.channel := by
  unfold markIf
  split
  · rfl
  · rfl

@[simp] theorem markIf_tMs (p : Prop) [Decidable p] (o : Observation) :
    (markIf p o).tMs = o.tMs := by
  unfold markIf
  split
  · rfl
  · rfl

theorem markIf_congr {p q : Prop} [Decidable p] [Decidable q] (h : p ↔ q) (o : Observation) :
    markIf p o = markIf q o := by
  unfold markIf
  simp only [h]

theorem sortEntries_map (g : ι → κ) (entries : List (Observation × ι)) :
    sortEntries (entries.map (Prod.map id g)) = (sortEntries entries).map (Prod.map id g) :=
  (List.map_insertionSort _ _ (Prod.map id g) entries fun _ _ _ _ => Iff.rfl).symm

theorem markedOf_map (g : ι → κ) (entries : List (Observation × ι)) :
    markedOf sha256 channel frozenMs names (entries.map (Prod.map id g)) =
      (markedOf sha256 channel frozenMs names entries).map (Prod.map id g) := by
  unfold markedOf
  rw [sortEntries_map, markedFrom_map]

theorem mem_of_mem_markedOf {entries : List (Observation × ι)} {entry : Observation × ι}
    (h : entry ∈ markedOf sha256 channel frozenMs names entries) : entry ∈ entries :=
  (List.perm_insertionSort _ _).mem_iff.mp ((markedFrom_sublist _ _ _).mem h)

/-- **The rule as a map over the observations and their places.** -/
theorem applyFrozenFieldsRule_eq (obs : List Observation) :
    applyFrozenFieldsRule sha256 obs channel frozenMs names =
      obs.zipIdx.map fun entry =>
        markIf (entry.2 ∈ (markedOf sha256 channel frozenMs names
          (obs.zipIdx.filter fun entry => entry.1.channel = channel)).map Prod.snd) entry.1 := by
  unfold applyFrozenFieldsRule
  refine List.map_congr_left fun entry _ => ?_
  refine markIf_congr ?_ entry.1
  rw [mem_stale_foldl]
  simp only [List.not_mem_nil, false_or]
  exact Iff.rfl

/-! ## 2. The observations of other channels -/

/-- The entries with the marks that the rule gives them. -/
def markEntries [DecidableEq ι] (sha256 : List UInt8 → Digest) (channel : ChannelId)
    (frozenMs : UInt64) (names : Option (List String)) (entries : List (Observation × ι)) :
    List Observation :=
  entries.map fun entry =>
    markIf (entry.2 ∈ (markedOf sha256 channel frozenMs names entries).map Prod.snd) entry.1

/-- Other names, the same marks, as long as no two entries get the same name. -/
theorem markEntries_map [DecidableEq ι] [DecidableEq κ] (g : ι → κ)
    {entries : List (Observation × ι)} (hnodup : ((entries.map Prod.snd).map g).Nodup) :
    markEntries sha256 channel frozenMs names (entries.map (Prod.map id g)) =
      markEntries sha256 channel frozenMs names entries := by
  unfold markEntries
  rw [List.map_map]
  refine List.map_congr_left fun entry hmem => ?_
  refine markIf_congr ?_ entry.1
  rw [markedOf_map, List.map_map]
  constructor
  · intro h
    obtain ⟨entry', hmarked, hname⟩ := List.mem_map.mp h
    have hinj := List.inj_on_of_nodup_map hnodup
      (List.mem_map_of_mem (mem_of_mem_markedOf hmarked)) (List.mem_map_of_mem hmem) hname
    exact List.mem_map.mpr ⟨entry', hmarked, hinj⟩
  · intro h
    obtain ⟨entry', hmarked, hname⟩ := List.mem_map.mp h
    exact List.mem_map.mpr ⟨entry', hmarked, congrArg g hname⟩

theorem nodup_names (obs : List Observation) (p : Observation × ℕ → Bool) :
    ((obs.zipIdx.filter p).map Prod.snd).Nodup := by
  refine (List.filter_sublist.map Prod.snd).nodup ?_
  rw [List.zipIdx_map_snd]
  exact List.nodup_range'

/-- The observations that pass, from the entries that do. -/
theorem zipIdx_filter_map_fst (obs : List Observation) (p : Observation → Bool) :
    (obs.zipIdx.filter fun entry => p entry.1).map Prod.fst = obs.filter p := by
  have h := List.filter_map (p := p) (l := obs.zipIdx) (f := Prod.fst)
  rw [List.zipIdx_map_fst] at h
  exact h.symm

/-- Entries are their observations under other names, the places counted from zero.  So what is
proved of one numbering holds of every other. -/
theorem eq_map_zipIdx (entries : List (Observation × ℕ)) :
    entries = (entries.map Prod.fst).zipIdx.map
      (Prod.map id fun i => (entries.map Prod.snd).getD i 0) := by
  refine List.ext_getElem (by simp) fun i hi hi' => ?_
  simp only [List.getElem_map, List.getElem_zipIdx, Nat.zero_add, Prod.map_apply, id_eq]
  rw [List.getD_eq_getElem?_getD, List.getElem?_map, List.getElem?_eq_getElem hi]
  rfl

theorem markEntries_zipIdx_filter (obs : List Observation) :
    markEntries sha256 channel frozenMs names
        (obs.zipIdx.filter fun entry => entry.1.channel = channel) =
      markEntries sha256 channel frozenMs names
        (obs.filter fun o => o.channel = channel).zipIdx := by
  have hentries := eq_map_zipIdx (obs.zipIdx.filter fun entry => entry.1.channel = channel)
  have hnodup := nodup_names obs fun entry => entry.1.channel = channel
  rw [zipIdx_filter_map_fst obs fun o => decide (o.channel = channel)] at hentries
  rw [hentries] at hnodup ⊢
  rw [List.map_map] at hnodup
  refine (markEntries_map _ ?_)
  rw [List.map_map]
  exact hnodup

/-- **What the rule makes of a channel depends on the observations of the channel only.** -/
theorem filter_applyFrozenFieldsRule (obs : List Observation) :
    ((applyFrozenFieldsRule sha256 obs channel frozenMs names).filter fun o =>
        o.channel = channel) =
      markEntries sha256 channel frozenMs names
        (obs.filter fun o => o.channel = channel).zipIdx := by
  rw [← markEntries_zipIdx_filter, applyFrozenFieldsRule_eq, List.filter_map]
  have hfilter : ((fun o : Observation => decide (o.channel = channel)) ∘
      fun entry : Observation × ℕ => markIf (entry.2 ∈ (markedOf sha256 channel frozenMs names
        (obs.zipIdx.filter fun entry => entry.1.channel = channel)).map Prod.snd) entry.1) =
      fun entry => decide (entry.1.channel = channel) := by
    funext entry
    rw [Function.comp_apply, markIf_channel]
  rw [hfilter]
  rfl

/-! ## 3. The order of the observations -/

/-- No two observations of the channel have one time.  Other channels may have what times they
like. -/
def DistinctTimes (channel : ChannelId) (obs : List Observation) : Prop :=
  obs.Pairwise fun a b => a.channel = channel → b.channel = channel → a.tMs ≠ b.tMs

theorem DistinctTimes.perm {obs obs' : List Observation} (h : DistinctTimes channel obs)
    (hperm : obs.Perm obs') : DistinctTimes channel obs' := by
  refine (hperm.pairwise_iff ?_).mp h
  intro a b hab hb ha heq
  exact hab ha hb heq.symm

theorem DistinctTimes.filter {obs : List Observation} (h : DistinctTimes channel obs) :
    (obs.filter fun o => o.channel = channel).Pairwise fun a b => a.tMs ≠ b.tMs := by
  rw [List.pairwise_filter]
  refine h.imp ?_
  intro a b hab ha hb
  exact hab (of_decide_eq_true ha) (of_decide_eq_true hb)

/-- An observation at two places would be a time twice, which distinct times rule out. -/
theorem DistinctTimes.one_place {obs : List Observation} (h : DistinctTimes channel obs)
    {o : Observation} (hc : o.channel = channel) {i j : ℕ} (hi : obs[i]? = some o)
    (hj : obs[j]? = some o) : i = j := by
  obtain ⟨hilt, hi⟩ := List.getElem?_eq_some_iff.mp hi
  obtain ⟨hjlt, hj⟩ := List.getElem?_eq_some_iff.mp hj
  have hpair := List.pairwise_iff_getElem.mp h
  rcases Nat.lt_trichotomy i j with hlt | heq | hlt
  · have hne := hpair i j hilt hjlt hlt
    rw [hi, hj] at hne
    exact absurd rfl (hne hc hc)
  · exact heq
  · have hne := hpair j i hjlt hilt hlt
    rw [hi, hj] at hne
    exact absurd rfl (hne hc hc)

theorem pairwise_sortByTime (time : ι → Int64) (l : List ι) :
    (l.insertionSort fun a b => time a ≤ time b).Pairwise fun a b => time a ≤ time b := by
  have : Std.Total fun a b => time a ≤ time b := ⟨fun a b => Int64.le_total (time a) (time b)⟩
  have : IsTrans ι fun a b => time a ≤ time b := ⟨fun _ _ _ => Int64.le_trans⟩
  exact List.pairwise_insertionSort _ _

/-- Distinct times have one order. -/
theorem sortByTime_perm {time : ι → Int64} {l l' : List ι} (hperm : l.Perm l')
    (hdistinct : l.Pairwise fun a b => time a ≠ time b) :
    (l.insertionSort fun a b => time a ≤ time b) =
      l'.insertionSort fun a b => time a ≤ time b := by
  refine List.Perm.eq_of_pairwise ?_ (pairwise_sortByTime time l) (pairwise_sortByTime time l') ?_
  · intro a b ha hb hab hba
    have ha' : a ∈ l := (List.perm_insertionSort _ _).mem_iff.mp ha
    have hb' : b ∈ l := hperm.mem_iff.mpr ((List.perm_insertionSort _ _).mem_iff.mp hb)
    have : Std.Symm fun a b => time a ≠ time b := ⟨fun _ _ h => h.symm⟩
    by_contra hne
    exact hdistinct.forall ha' hb' hne (Int64.le_antisymm hab hba)
  · exact (List.perm_insertionSort _ _).trans (hperm.trans (List.perm_insertionSort _ _).symm)

variable (sha256 channel frozenMs names)

/-- The observations that are marked, by themselves. -/
def markedObservations (obs : List Observation) : List Observation :=
  (markedOf sha256 channel frozenMs names
    ((obs.filter fun o => o.channel = channel).map fun o => (o, ()))).map Prod.fst

variable {sha256 channel frozenMs names}

theorem markedObservations_eq (obs : List Observation) :
    markedObservations sha256 channel frozenMs names obs =
      (markedOf sha256 channel frozenMs names
        (obs.zipIdx.filter fun entry => entry.1.channel = channel)).map Prod.fst := by
  have hentries : ((obs.filter fun o => o.channel = channel).map fun o => (o, ())) =
      (obs.zipIdx.filter fun entry => entry.1.channel = channel).map
        (Prod.map id fun _ => ()) := by
    rw [← zipIdx_filter_map_fst obs fun o => decide (o.channel = channel), List.map_map]
    rfl
  unfold markedObservations
  rw [hentries, markedOf_map, List.map_map]
  rfl

/-- **Where times are distinct, the rule marks observations and not places.** -/
theorem applyFrozenFieldsRule_of_distinct {obs : List Observation}
    (h : DistinctTimes channel obs) :
    applyFrozenFieldsRule sha256 obs channel frozenMs names =
      obs.map fun o =>
        markIf (o ∈ markedObservations sha256 channel frozenMs names obs) o := by
  rw [applyFrozenFieldsRule_eq, markedObservations_eq]
  conv_rhs => rw [← List.zipIdx_map_fst 0 obs, List.map_map]
  refine List.map_congr_left fun entry hentry => ?_
  refine markIf_congr ?_ entry.1
  have hget : obs[entry.2]? = some entry.1 := List.mem_zipIdx_iff_getElem?.mp hentry
  rw [List.zipIdx_map_fst]
  constructor
  · intro hmem
    obtain ⟨entry', hmarked, hname⟩ := List.mem_map.mp hmem
    have hget' : obs[entry'.2]? = some entry'.1 :=
      List.mem_zipIdx_iff_getElem?.mp (List.mem_filter.mp (mem_of_mem_markedOf hmarked)).1
    rw [hname, hget] at hget'
    exact List.mem_map.mpr ⟨entry', hmarked, (Option.some.inj hget').symm⟩
  · intro hmem
    obtain ⟨entry', hmarked, hobs⟩ := List.mem_map.mp hmem
    obtain ⟨hentry', hchannel⟩ := List.mem_filter.mp (mem_of_mem_markedOf hmarked)
    have hget' : obs[entry'.2]? = some entry'.1 := List.mem_zipIdx_iff_getElem?.mp hentry'
    rw [hobs] at hget' hchannel
    rw [h.one_place (of_decide_eq_true hchannel) hget hget']
    exact List.mem_map_of_mem hmarked

/-- **The rule on the same observations in another order.** The result is the other one in that
order. -/
theorem applyFrozenFieldsRule_perm {obs obs' : List Observation} (hperm : obs.Perm obs')
    (h : DistinctTimes channel obs) :
    (applyFrozenFieldsRule sha256 obs channel frozenMs names).Perm
      (applyFrozenFieldsRule sha256 obs' channel frozenMs names) := by
  have hmarked : markedObservations sha256 channel frozenMs names obs =
      markedObservations sha256 channel frozenMs names obs' := by
    unfold markedObservations markedOf sortEntries
    rw [sortByTime_perm ((hperm.filter _).map _)]
    exact List.pairwise_map.mpr h.filter
  rw [applyFrozenFieldsRule_of_distinct h, applyFrozenFieldsRule_of_distinct (h.perm hperm),
    hmarked]
  exact hperm.map _

end Musubi.Reference
