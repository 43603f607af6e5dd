/-
# What the frozen rule marks

The loop of `apply_frozen_fields_rule` keeps the start time and the digest of one run.  They are
those of the first observation of the maximal run of equal digests that the observations seen so
far end in, so an observation is marked when it lies in such a run, behind its first observation,
and late enough.

The specification says "maximal run" without a loop: `Frozen` asks for a first observation, in
time order, such that it and all up to the marked one have the same digest and the one before it
has another.  `Lib.EqualRuns` connects the two, once, for any list and any key; here the keys are
digests, and what cannot be compared has none and ends a run (`Comparable`).

Two things at the edges of the rule are the code's own.  The first observation of a run is never
marked, also where the threshold is zero, and a threshold beyond 2^63 - 1 milliseconds is taken
for that; section 5 compares with the reading in which both are taken literally.
-/
import Musubi.Lib.EqualRuns
import Musubi.Reference.AbsenceExact

namespace Musubi.Reference

open Lib

variable (sha256 : List UInt8 → Digest)
variable (channel : ChannelId) (frozenMs : UInt64) (names : Option (List String))

/-! ## 1. Time order -/

/-- In the order of the times, and of the places where times are equal, which is the order of a
stable sort by time. -/
def EntryBefore (a b : Observation × ℕ) : Prop :=
  a.1.tMs < b.1.tMs ∨ a.1.tMs = b.1.tMs ∧ a.2 < b.2

theorem entryBefore_of_le {a b : Observation × ℕ} (ht : a.1.tMs ≤ b.1.tMs) (hp : a.2 < b.2) :
    EntryBefore a b := by
  by_cases heq : a.1.tMs = b.1.tMs
  · exact Or.inr ⟨heq, hp⟩
  · exact Or.inl (Int64.lt_of_le_of_ne ht heq)

theorem EntryBefore.le {a b : Observation × ℕ} (h : EntryBefore a b) : a.1.tMs ≤ b.1.tMs := by
  rcases h with h | h
  · exact Int64.le_of_lt h
  · exact Int64.le_of_eq h.1

theorem orderedInsert_pairwise {x : Observation × ℕ} {sorted : List (Observation × ℕ)}
    (hsorted : sorted.Pairwise EntryBefore) (hx : ∀ b ∈ sorted, x.2 < b.2) :
    (sorted.orderedInsert (fun a b => a.1.tMs ≤ b.1.tMs) x).Pairwise EntryBefore := by
  induction sorted with
  | nil => exact List.pairwise_singleton _ _
  | cons b sorted ih =>
    obtain ⟨hb, htail⟩ := List.pairwise_cons.mp hsorted
    rw [List.orderedInsert_cons]
    split
    · rename_i hle
      refine List.pairwise_cons.mpr ⟨fun c hc => ?_, hsorted⟩
      refine entryBefore_of_le ?_ (hx c hc)
      rcases List.mem_cons.mp hc with rfl | hc
      · exact hle
      · exact Int64.le_trans hle (hb c hc).le
    · rename_i hlt
      refine List.pairwise_cons.mpr ⟨fun c hc => ?_, ih htail fun c hc => hx c (by simp [hc])⟩
      rcases (List.mem_orderedInsert _).mp hc with rfl | hc
      · exact Or.inl (Int64.not_le.mp hlt)
      · exact hb c hc

/-- The sort is stable: entries of one time stay in the order of their places. -/
theorem insertionSort_pairwise {entries : List (Observation × ℕ)}
    (hplaces : entries.Pairwise fun a b => a.2 < b.2) :
    (entries.insertionSort fun a b => a.1.tMs ≤ b.1.tMs).Pairwise EntryBefore := by
  induction entries with
  | nil => exact List.Pairwise.nil
  | cons x entries ih =>
    obtain ⟨hx, htail⟩ := List.pairwise_cons.mp hplaces
    rw [List.insertionSort_cons]
    refine orderedInsert_pairwise (ih htail) fun b hb => hx b ?_
    exact (List.perm_insertionSort _ _).mem_iff.mp hb

theorem channelEntries_pairwise (obs : List Observation) :
    (channelEntries obs channel).Pairwise EntryBefore := by
  refine insertionSort_pairwise (List.Pairwise.filter _ ?_)
  have hplaces : (obs.zipIdx.map Prod.snd).Pairwise (· < ·) := by
    rw [List.zipIdx_map_snd]
    exact List.pairwise_lt_range'
  exact List.pairwise_map.mp hplaces

theorem channelEntries_perm (obs : List Observation) :
    (channelEntries obs channel).Perm
      (obs.zipIdx.filter fun entry => entry.1.channel = channel) :=
  List.perm_insertionSort _ _

/-! ## 2. The digest of an observation -/

/-- The name selects one value that is there and, if it is a number, finite. -/
def Selects (o : Observation) (name : String) : Prop :=
  ∃ value, (o.fields.filter fun field => field.1 = name) = [(name, value)] ∧
    value ≠ .blank ∧ ∀ n, value = .f64 n → n.isFinite = true

/-- The observation has the values that are compared: all its fields, or those of the names, of
which there must be one and each must be there once. -/
def Comparable (names : Option (List String)) (o : Observation) : Prop :=
  ∀ selection, names = some selection → selection ≠ [] ∧ ∀ name ∈ selection, Selects o name

theorem selectedValue_isSome_iff (o : Observation) (name : String) :
    (selectedValue o name).isSome = true ↔ Selects o name := by
  unfold selectedValue Selects
  have hname : ∀ field ∈ o.fields.filter fun field => field.1 = name, field.1 = name :=
    fun field hfield => of_decide_eq_true (List.mem_filter.mp hfield).2
  generalize (o.fields.filter fun field => field.1 = name) = matching at hname ⊢
  match matching with
  | [] => simp
  | [(key, value)] =>
    obtain rfl : key = name := hname (key, value) (List.mem_singleton_self _)
    cases value with
    | f64 n =>
      by_cases hn : n.isFinite = true
      · simp [hn]
      · simp [hn]
    | i64 v => simp
    | text v => simp
    | blank => simp
  | _ :: _ :: _ => simp

theorem mapM_isSome_iff {α β : Type} {f : α → Option β} (l : List α) :
    (l.mapM f).isSome = true ↔ ∀ a ∈ l, (f a).isSome = true := by
  induction l with
  | nil => simp
  | cons a l ih =>
    rw [List.forall_mem_cons, ← ih, List.mapM_cons]
    cases f a with
    | none => simp
    | some b =>
      cases l.mapM f with
      | none => simp
      | some bs => simp

theorem selectedValues_eq_nil_iff (o : Observation) (selection : List String) :
    selectedValues o selection = some [] ↔ selection = [] := by
  constructor
  · intro h
    cases selection with
    | nil => rfl
    | cons name selection =>
      rw [selectedValues, List.mapM_cons] at h
      obtain ⟨_, -, h⟩ := Option.bind_eq_some_iff.mp h
      obtain ⟨_, -, h⟩ := Option.bind_eq_some_iff.mp h
      cases h
  · rintro rfl
    rfl

/-- **What cannot be compared has no digest.** A field that is missing, blank or not finite makes
an observation of this kind. -/
theorem frozenDigest_isSome_iff (o : Observation) :
    (frozenDigest sha256 channel names o).isSome = true ↔ Comparable names o := by
  unfold frozenDigest Comparable
  cases names with
  | none => simp
  | some selection =>
    have hall : (selectedValues o selection).isSome = true ↔
        ∀ name ∈ selection, Selects o name := by
      rw [selectedValues, mapM_isSome_iff]
      exact forall₂_congr fun name _ => selectedValue_isSome_iff o name
    have hnil := selectedValues_eq_nil_iff o selection
    simp only [Option.some.injEq, forall_eq']
    rw [← hall, ne_eq, ← hnil]
    match selectedValues o selection with
    | none => simp
    | some [] => simp
    | some (value :: values) => simp

/-! ## 3. The loop -/

/-- The digest of the observation at a place. -/
def entryDigest (entry : Observation × ℕ) : Option Digest :=
  frozenDigest sha256 channel names entry.1

/-- The entry continues the run that began with `first`, late enough: both have the digest of the
run, and the difference of their times reaches the threshold. -/
def Late (first : Option (Observation × ℕ)) (entry : Observation × ℕ) : Prop :=
  ∃ a d, first = some a ∧ entryDigest sha256 channel names a = some d ∧
    entryDigest sha256 channel names entry = some d ∧
    frozenAt frozenMs (some a.1.tMs) entry.1.tMs = true

variable {sha256 channel frozenMs names}

/-- One entry is marked, or is not, and the first entry of the run is the one the loop knows. -/
theorem mem_markedFrom_cons_iff {entry x : Observation × ℕ} {entries : List (Observation × ℕ)}
    (first : Option (Observation × ℕ)) :
    entry ∈ markedFrom sha256 channel frozenMs names (first.map fun a => a.1.tMs)
        (first.bind (entryDigest sha256 channel names)) (x :: entries) ↔
      entry = x ∧ Late sha256 channel frozenMs names first x ∨
        entry ∈ markedFrom sha256 channel frozenMs names
          ((stepFirst (entryDigest sha256 channel names) first x).map fun a => a.1.tMs)
          ((stepFirst (entryDigest sha256 channel names) first x).bind
            (entryDigest sha256 channel names)) entries := by
  have hfold : frozenDigest sha256 channel names x.1 = entryDigest sha256 channel names x := rfl
  rw [markedFrom, stepFirst, Late, hfold]
  cases hx : entryDigest sha256 channel names x with
  | none => simp
  | some d =>
    dsimp only
    split
    · rename_i hsame
      obtain ⟨a, rfl, ha⟩ := Option.bind_eq_some_iff.mp hsame
      have hlate : (∃ b e, some a = some b ∧ entryDigest sha256 channel names b = some e ∧
          some d = some e ∧ frozenAt frozenMs (some b.1.tMs) x.1.tMs = true) ↔
          frozenAt frozenMs (some a.1.tMs) x.1.tMs = true := by
        constructor
        · rintro ⟨b, e, hb, -, -, ht⟩
          cases hb
          exact ht
        · intro ht
          exact ⟨a, d, rfl, ha, rfl, ht⟩
      rw [hlate, Option.map_some, Option.bind_some, ha]
      split
      · rename_i ht
        rw [List.mem_cons, iff_true_intro ht, and_true]
      · rename_i ht
        rw [iff_false_intro ht, and_false, false_or]
    · rename_i hother
      have hlate : ¬ ∃ a e, first = some a ∧ entryDigest sha256 channel names a = some e ∧
          some d = some e ∧ frozenAt frozenMs (some a.1.tMs) x.1.tMs = true := by
        rintro ⟨a, e, rfl, ha, he, -⟩
        exact hother (ha.trans he.symm)
      rw [iff_false_intro hlate, and_false, false_or, Option.map_some, Option.bind_some, hx]

/-- **The loop marks what comes late enough after the first observation of its run.** By induction
on the observations that are left, with the first one of the current run as the variable. -/
theorem mem_markedFrom_iff {entry : Observation × ℕ} (entries : List (Observation × ℕ)) :
    ∀ first : Option (Observation × ℕ),
      entry ∈ markedFrom sha256 channel frozenMs names (first.map fun a => a.1.tMs)
          (first.bind (entryDigest sha256 channel names)) entries ↔
        ∃ before after, entries = before ++ entry :: after ∧
          Late sha256 channel frozenMs names
            (before.foldl (stepFirst (entryDigest sha256 channel names)) first) entry := by
  induction entries with
  | nil =>
    intro first
    refine iff_of_false List.not_mem_nil ?_
    rintro ⟨before, after, hsplit, -⟩
    exact List.append_ne_nil_of_right_ne_nil _ (List.cons_ne_nil _ _) hsplit.symm
  | cons x entries ih =>
    intro first
    rw [mem_markedFrom_cons_iff, ih, exists_split_cons_iff]

/-! ## 4. The rule -/

variable (sha256 channel frozenMs names) in
/-- The entry lies in a maximal run of equal digests in time order, behind its first observation,
and `frozen_ms` later, or 2^63 - 1 where that is less. -/
def Frozen (obs : List Observation) (entry : Observation × ℕ) : Prop :=
  ∃ before first between after d,
    channelEntries obs channel = before ++ first :: (between ++ entry :: after) ∧
    RunFrom (entryDigest sha256 channel names) before first (between ++ [entry]) d ∧
    min (frozenMs.toNat : ℤ) (2 ^ 63 - 1) ≤ entry.1.tMs.toInt - first.1.tMs.toInt

/-- The saturated difference reaches the clamped threshold where the difference does.  The
threshold is clamped to what an `i64` holds, and so is the difference, so saturation changes
neither side of the comparison. -/
theorem frozenAt_iff (start t : Int64) :
    frozenAt frozenMs (some start) t = true ↔
      min (frozenMs.toNat : ℤ) (2 ^ 63 - 1) ≤ t.toInt - start.toInt := by
  have hclamp : (satSub64 t start).toInt =
      max (-2 ^ 63) (min (t.toInt - start.toInt) (2 ^ 63 - 1)) := by
    refine toInt_ofInt64 ⟨?_, ?_⟩
    · omega
    · omega
  rw [frozenAt, decide_eq_true_iff, Int64.le_iff_toInt_le, hclamp, i64OrMax,
    toInt_clamp64_of_nonneg (Int.natCast_nonneg _)]
  omega

/-- **The marked entries are the frozen ones.** -/
theorem mem_markedOf_iff (obs : List Observation) (entry : Observation × ℕ) :
    entry ∈ markedOf sha256 channel frozenMs names
        (obs.zipIdx.filter fun entry => entry.1.channel = channel) ↔
      Frozen sha256 channel frozenMs names obs entry := by
  refine (mem_markedFrom_iff (channelEntries obs channel) none).trans ?_
  constructor
  · rintro ⟨seen, after, hsplit, first, d, hfirst, hd, hentry, ht⟩
    obtain ⟨before, between, d', rfl, hrun⟩ := (endingRun_eq_some_iff seen).mp hfirst
    obtain rfl : d' = d := Option.some.inj (hrun.first_value.symm.trans hd)
    refine ⟨before, first, between, after, d', by simpa using hsplit, ?_, (frozenAt_iff _ _).mp ht⟩
    refine ⟨hd, fun x hx => ?_, hrun.maximal⟩
    rcases List.mem_append.mp hx with hx | hx
    · exact hrun.same x hx
    · rw [List.mem_singleton.mp hx]
      exact hentry
  · rintro ⟨before, first, between, after, d, hsplit, hrun, ht⟩
    have hfirst : endingRun (entryDigest sha256 channel names) (before ++ first :: between) =
        some first :=
      (endingRun_eq_some_iff _).mpr ⟨before, between, d, rfl, hrun.first_value,
        fun x hx => hrun.same x (List.mem_append_left _ hx), hrun.maximal⟩
    exact ⟨before ++ first :: between, after, by simpa using hsplit, first, d, hfirst,
      hrun.first_value, hrun.same entry (by simp), (frozenAt_iff _ _).mpr ht⟩

variable (sha256 channel frozenMs names) in
/-- The observation at a place, with the mark it has then: the rule changes no place and nothing
but the mark. -/
theorem applyFrozenFieldsRule_getElem? {obs : List Observation} {i : ℕ} {o : Observation}
    (h : obs[i]? = some o) :
    ∃ stale, (applyFrozenFieldsRule sha256 obs channel frozenMs names)[i]? =
        some { o with stale } ∧
      (stale = true ↔ o.stale = true ∨ Frozen sha256 channel frozenMs names obs (o, i)) := by
  have hplace : i ∈ (markedOf sha256 channel frozenMs names
      (obs.zipIdx.filter fun entry => entry.1.channel = channel)).map Prod.snd ↔
      Frozen sha256 channel frozenMs names obs (o, i) := by
    rw [← mem_markedOf_iff]
    constructor
    · intro hmem
      obtain ⟨⟨o', j⟩, hmarked, rfl⟩ := List.mem_map.mp hmem
      have hget := List.mem_zipIdx_iff_getElem?.mp
        (List.mem_filter.mp (mem_of_mem_markedOf hmarked)).1
      obtain rfl : o = o' := Option.some.inj (h.symm.trans hget)
      exact hmarked
    · intro hmarked
      exact List.mem_map.mpr ⟨(o, i), hmarked, rfl⟩
  rw [applyFrozenFieldsRule_eq, List.getElem?_map, List.getElem?_zipIdx, h]
  simp only [Option.map_some, Nat.zero_add, Option.some.injEq]
  unfold markIf
  split
  · rename_i hmarked
    exact ⟨true, rfl, iff_of_true rfl (Or.inr (hplace.mp hmarked))⟩
  · rename_i hmarked
    refine ⟨o.stale, rfl, Iff.symm (or_iff_left fun hfrozen => hmarked (hplace.mpr hfrozen))⟩

/-- **The frozen rule changes stale flags only, clears none, and sets them on what is frozen.** An
entry is an observation and its place, since two observations may be equal; the first part says in
which order the entries of the channel are compared, by time and, where times agree, by place.
Observations, names and threshold are arbitrary. -/
theorem frozen_rule_exact (sha256 : List UInt8 → Digest) (obs : List Observation)
    (channel : ChannelId) (frozenMs : UInt64) (names : Option (List String)) :
    ((channelEntries obs channel).Perm
        (obs.zipIdx.filter fun entry => entry.1.channel = channel) ∧
      (channelEntries obs channel).Pairwise EntryBefore) ∧
    (applyFrozenFieldsRule sha256 obs channel frozenMs names).length = obs.length ∧
    (∀ (i : ℕ) (o : Observation), obs[i]? = some o →
      ∃ stale, (applyFrozenFieldsRule sha256 obs channel frozenMs names)[i]? =
          some { o with stale } ∧
        (stale = true ↔ o.stale = true ∨ Frozen sha256 channel frozenMs names obs (o, i))) ∧
    (∀ entry : Observation × ℕ, ¬ Comparable names entry.1 →
      entryDigest sha256 channel names entry = none ∧
        ¬ Frozen sha256 channel frozenMs names obs entry) := by
  refine ⟨⟨channelEntries_perm channel obs, channelEntries_pairwise channel obs⟩, ?_, ?_, ?_⟩
  · rw [applyFrozenFieldsRule, List.length_map, List.length_zipIdx]
  · intro i o h
    exact applyFrozenFieldsRule_getElem? sha256 channel frozenMs names h
  · intro entry hentry
    have hdigest : entryDigest sha256 channel names entry = none := by
      rw [← frozenDigest_isSome_iff sha256 channel] at hentry
      exact Option.not_isSome_iff_eq_none.mp hentry
    refine ⟨hdigest, ?_⟩
    rintro ⟨before, first, between, after, d, -, hrun, -⟩
    have hd := hrun.same entry (by simp)
    rw [hdigest] at hd
    cases hd

/-! ## 5. The least and the largest thresholds -/

/-- The entry lies in a maximal run of equal digests, `frozen_ms` after its first observation,
which counts as one of its observations, and with no bound on what `frozen_ms` can be. -/
def FrozenLiterally (sha256 : List UInt8 → Digest) (channel : ChannelId) (frozenMs : UInt64)
    (names : Option (List String)) (obs : List Observation) (entry : Observation × ℕ) : Prop :=
  ∃ before first run after d,
    channelEntries obs channel = before ++ first :: (run ++ after) ∧
    RunFrom (entryDigest sha256 channel names) before first run d ∧ entry ∈ first :: run ∧
    (frozenMs.toNat : ℤ) ≤ entry.1.tMs.toInt - first.1.tMs.toInt

/-- The rule marks what is frozen in this sense. -/
def MarksLiterally (sha256 : List UInt8 → Digest) (channel : ChannelId) (frozenMs : UInt64)
    (names : Option (List String)) (obs : List Observation) : Prop :=
  ∀ i o, obs[i]? = some o →
    ((applyFrozenFieldsRule sha256 obs channel frozenMs names)[i]?.map Observation.stale =
        some true ↔
      o.stale = true ∨ FrozenLiterally sha256 channel frozenMs names obs (o, i))

theorem entryDigest_heartbeatAt (tMs : Int64) (i : ℕ) :
    entryDigest Sha256.hash .heartbeat none (heartbeatAt tMs, i) =
      some (valueDigest Sha256.hash []) := rfl

/-- One heartbeat 2^63 - 1 milliseconds after another. -/
def lateHeartbeats : List Observation := [heartbeatAt (-1), heartbeatAt 9223372036854775806]

/-- With a threshold of zero the first observation of a run is not marked, and a threshold
that no difference reaches is reached where the difference saturates. -/
theorem threshold_extremes :
    ¬ MarksLiterally Sha256.hash .heartbeat 0 none [heartbeatAt 1000] ∧
      ¬ MarksLiterally Sha256.hash .heartbeat 9223372036854775808 none
        lateHeartbeats := by
  constructor
  · intro hmarks
    have hliteral : FrozenLiterally Sha256.hash .heartbeat 0 none [heartbeatAt 1000]
        (heartbeatAt 1000, 0) :=
      ⟨[], (heartbeatAt 1000, 0), [], [], _, rfl,
        ⟨entryDigest_heartbeatAt _ _, List.forall_mem_nil _, fun _ h => nomatch h⟩,
        List.mem_singleton_self _, by decide⟩
    obtain ⟨stale, hget, hstale⟩ := @applyFrozenFieldsRule_getElem? Sha256.hash .heartbeat 0 none
      [heartbeatAt 1000] 0 _ rfl
    have hmarked := (hmarks 0 _ rfl).mpr (Or.inr hliteral)
    rw [hget] at hmarked
    rcases hstale.mp (Option.some.inj hmarked) with h | h
    · cases h
    · obtain ⟨before, first, between, after, d, hentries, -⟩ := h
      have hlength := congrArg List.length hentries
      simp only [List.length_append, List.length_cons] at hlength
      have hone : (channelEntries [heartbeatAt 1000] .heartbeat).length = 1 := rfl
      omega
  · intro hmarks
    have hentries : channelEntries lateHeartbeats .heartbeat =
        [(heartbeatAt (-1), 0), (heartbeatAt 9223372036854775806, 1)] := rfl
    have hfrozen : Frozen Sha256.hash .heartbeat 9223372036854775808 none
        lateHeartbeats (heartbeatAt 9223372036854775806, 1) := by
      refine ⟨[], (heartbeatAt (-1), 0), [], [], _, hentries,
        ⟨entryDigest_heartbeatAt _ _, fun x hx => ?_, fun _ h => nomatch h⟩, by decide⟩
      rw [List.mem_singleton.mp hx]
      exact entryDigest_heartbeatAt _ _
    obtain ⟨stale, hget, hstale⟩ := @applyFrozenFieldsRule_getElem? Sha256.hash .heartbeat
      9223372036854775808 none lateHeartbeats 1 _ rfl
    have hmarked := (hmarks 1 _ rfl).mp <| by
      rw [hget]
      exact congrArg some (hstale.mpr (Or.inr hfrozen))
    rcases hmarked with h | ⟨before, first, run, after, d, hsplit, -, -, hdiff⟩
    · cases h
    · have hfirst : first ∈ [(heartbeatAt (-1), 0), (heartbeatAt 9223372036854775806, 1)] := by
        rw [← hentries, hsplit]
        simp
      rcases List.mem_cons.mp hfirst with rfl | hfirst
      · exact absurd hdiff (by decide)
      · rw [List.mem_singleton.mp hfirst] at hdiff
        exact absurd hdiff (by decide)

end Musubi.Reference
