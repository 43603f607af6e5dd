/-
# Injected time

`injected_ms` of `reference-readers/src/eval.rs` against the measure of what it merges.  Its loop
over the sorted spans of an asset is the sweep of `Lib.Intervals` on 64-bit words (`assetMs_eq`).
Sums of words are sums of integers up to 2^64, so the injected time is the sum of the measures
where these fit, and whether they fit or not it depends on nothing but the sets that the windows
cover (`injectedMs_congr`).

The specification is the Lebesgue measure of a union of intervals, which knows nothing of sorting
and merging.  The library connects it with the sweep: sorted by their starts, the intervals are
closed one after the other, and what a closed one adds is its length, since the next starts behind
it.

The two consequences that a reader of the metrics relies on, that incidents may be listed in any
order and that an incident inside another adds nothing, are equalities of SETS, and so they hold
also where the sum wraps around.
-/
import Musubi.Lib.Intervals
import Musubi.Lib.Saturating
import Musubi.Pipeline.Eval
import Mathlib.Algebra.BigOperators.Group.Finset.Basic

namespace Musubi.Pipeline.Eval

open Lib Reference MeasureTheory

/-! ## 1. The spans of an asset -/

/-- The attribution windows of an asset. -/
def spansOf (incidents : List Incident) (cfg : EvalConfig) (assetId : String) : List Span :=
  (incidents.filter fun inc => inc.assetId = assetId).map fun inc =>
    (inc.tInjectMs, cfg.windowEnd inc)

theorem mem_spansOf {incidents : List Incident} {cfg : EvalConfig} {assetId : String}
    {span : Span} : span ∈ spansOf incidents cfg assetId ↔
      ∃ inc ∈ incidents, inc.assetId = assetId ∧ (inc.tInjectMs, cfg.windowEnd inc) = span := by
  simp only [spansOf, List.mem_map, List.mem_filter, decide_eq_true_eq, and_assoc]

theorem spansOf_concat (incidents : List Incident) (inc : Incident) (cfg : EvalConfig)
    (assetId : String) : spansOf (incidents ++ [inc]) cfg assetId =
      spansOf incidents cfg assetId ++
        if inc.assetId = assetId then [(inc.tInjectMs, cfg.windowEnd inc)] else [] := by
  by_cases h : inc.assetId = assetId
  · simp [spansOf, h]
  · simp [spansOf, h]

theorem get?_byAsset (incidents : List Incident) (cfg : EvalConfig) (assetId : String) :
    (byAsset incidents cfg).get? assetId =
      if spansOf incidents cfg assetId = [] then none
      else some (spansOf incidents cfg assetId) := by
  induction incidents using List.reverseRecOn with
  | nil => rfl
  | append_singleton incidents inc ih =>
    have hstep : byAsset (incidents ++ [inc]) cfg = (byAsset incidents cfg).insert inc.assetId
        (((byAsset incidents cfg).get? inc.assetId).getD [] ++
          [(inc.tInjectMs, cfg.windowEnd inc)]) := by
      unfold byAsset
      rw [List.foldl_append, List.foldl_cons, List.foldl_nil]
    rw [hstep, BTreeMap.get?_insert, spansOf_concat]
    by_cases h : inc.assetId = assetId
    · have hold : ((byAsset incidents cfg).get? assetId).getD [] =
          spansOf incidents cfg assetId := by
        rw [ih]
        split
        · next hnil => exact hnil.symm
        · rfl
      rw [if_pos h, if_pos h, h, hold, if_neg (List.append_ne_nil_of_right_ne_nil _
        (List.cons_ne_nil _ _))]
    · rw [if_neg h, if_neg h, List.append_nil]
      exact ih

/-- The assets of the incidents. -/
def assetsOf (incidents : List Incident) : Finset String :=
  (incidents.map Incident.assetId).toFinset

theorem keys_byAsset (incidents : List Incident) (cfg : EvalConfig) :
    (byAsset incidents cfg).keys.toFinset = assetsOf incidents := by
  ext assetId
  rw [List.mem_toFinset, ← BTreeMap.get?_isSome_iff, get?_byAsset, assetsOf, List.mem_toFinset,
    List.mem_map]
  by_cases h : spansOf incidents cfg assetId = []
  · rw [if_pos h]
    constructor
    · intro hnone
      cases hnone
    · rintro ⟨inc, hinc, hid⟩
      have hmem : (inc.tInjectMs, cfg.windowEnd inc) ∈ spansOf incidents cfg assetId :=
        mem_spansOf.mpr ⟨inc, hinc, hid, rfl⟩
      rw [h] at hmem
      cases hmem
  · rw [if_neg h]
    obtain ⟨span, hspan⟩ := List.exists_mem_of_ne_nil _ h
    obtain ⟨inc, hinc, hid, -⟩ := mem_spansOf.mp hspan
    exact ⟨fun _ => ⟨inc, hinc, hid⟩, fun _ => rfl⟩

/-! ## 2. The sweep on words -/

/-- A span as integers. -/
def ints (span : Span) : ℤ × ℤ := (span.1.toInt, span.2.toInt)

/-- The words of a merge are the integers of a sweep, up to 2^64.  The open interval is kept
exactly, and what has been closed as a sum that may have wrapped. -/
structure Merges (m : Merging) (s : Sweep) : Prop where
  perAsset_eq : m.perAsset = .ofInt s.closed
  cur_eq : m.cur.map ints = s.current

theorem Merges.step {m : Merging} {s : Sweep} (h : Merges m s) (span : Span) :
    Merges (mergeStep m span) (s.step (ints span)) := by
  obtain ⟨perAsset, cur⟩ := m
  obtain ⟨closed, current⟩ := s
  obtain ⟨hper, hcur⟩ := h
  obtain rfl : perAsset = .ofInt closed := hper
  obtain rfl : cur.map ints = current := hcur
  cases cur with
  | none => exact ⟨rfl, rfl⟩
  | some open_ =>
    obtain ⟨a, b⟩ := open_
    have hmerge : mergeStep ⟨.ofInt closed, some (a, b)⟩ span =
        if span.1 ≤ b then ⟨.ofInt closed, some (a, max b span.2)⟩
        else ⟨.ofInt closed + (b - a), some span⟩ := rfl
    have hsweep : (⟨closed, (some (a, b)).map ints⟩ : Sweep).step (ints span) =
        if span.1.toInt ≤ b.toInt then ⟨closed, some (a.toInt, max b.toInt span.2.toInt)⟩
        else ⟨closed + (b.toInt - a.toInt), some (ints span)⟩ := rfl
    rw [hmerge, hsweep]
    by_cases hin : span.1 ≤ b
    · rw [if_pos hin, if_pos (Int64.le_iff_toInt_le.mp hin)]
      refine ⟨rfl, ?_⟩
      have hmax : (max b span.2).toInt = max b.toInt span.2.toInt := toInt_max b span.2
      rw [← hmax]
      rfl
    · rw [if_neg hin, if_neg (mt Int64.le_iff_toInt_le.mpr hin)]
      refine ⟨?_, rfl⟩
      rw [Int64.ofInt_add, Int64.ofInt_sub, Int64.ofInt_toInt, Int64.ofInt_toInt]

theorem Merges.close_eq {m : Merging} {s : Sweep} (h : Merges m s) :
    m.close = .ofInt s.total := by
  obtain ⟨perAsset, cur⟩ := m
  obtain ⟨closed, current⟩ := s
  obtain ⟨hper, hcur⟩ := h
  obtain rfl : perAsset = .ofInt closed := hper
  obtain rfl : cur.map ints = current := hcur
  cases cur with
  | none => rfl
  | some open_ =>
    have htotal : (⟨closed, (some open_).map ints⟩ : Sweep).total =
        closed + (open_.2.toInt - open_.1.toInt) := rfl
    rw [htotal, Int64.ofInt_add, Int64.ofInt_sub, Int64.ofInt_toInt, Int64.ofInt_toInt]
    rfl

instance : Std.Total Span.le where
  total p q := by
    unfold Span.le
    rw [Int64.lt_iff_toInt_lt, Int64.lt_iff_toInt_lt, Int64.le_iff_toInt_le, Int64.le_iff_toInt_le,
      ← Int64.toInt_inj, ← Int64.toInt_inj]
    omega

instance : IsTrans Span Span.le where
  trans p q r hpq hqr := by
    unfold Span.le at *
    rw [Int64.lt_iff_toInt_lt, Int64.le_iff_toInt_le, ← Int64.toInt_inj] at *
    omega

/-- The spans in the order in which they are merged. -/
def sortedInts (spans : List Span) : List (ℤ × ℤ) := (spans.insertionSort Span.le).map ints

theorem pairwise_sortedInts (spans : List Span) :
    (sortedInts spans).Pairwise fun p q => p.1 ≤ q.1 := by
  refine List.pairwise_map.mpr ((List.pairwise_insertionSort Span.le spans).imp ?_)
  intro p q h
  unfold Span.le at h
  rw [Int64.lt_iff_toInt_lt, ← Int64.toInt_inj] at h
  unfold ints
  omega

theorem assetMs_eq (spans : List Span) : assetMs spans = .ofInt (sweep (sortedInts spans)) := by
  have hrun (l : List Span) : ∀ {m : Merging} {s : Sweep}, Merges m s →
      Merges (l.foldl mergeStep m) ((l.map ints).foldl Sweep.step s) := by
    induction l with
    | nil => exact fun h => h
    | cons span l ih => exact fun h => ih (h.step span)
  have hstart : Merges ⟨0, none⟩ .start := ⟨rfl, rfl⟩
  exact (hrun _ hstart).close_eq

/-! ## 3. Sums of words -/

theorem foldl_add_ofInt {α : Type} (l : List α) (f : α → Int64) (n : ℤ) :
    l.foldl (fun total a => total + f a) (.ofInt n) =
      .ofInt (n + (l.map fun a => (f a).toInt).sum) := by
  induction l generalizing n with
  | nil => simp
  | cons a l ih =>
    rw [List.foldl_cons, ← Int64.ofInt_toInt (f a), ← Int64.ofInt_add, ih, List.map_cons,
      List.sum_cons, add_assoc]

/-- **The injected time is a sum over the assets**, up to 2^64: the loop over the assets adds
words. -/
theorem injectedMs_eq (incidents : List Incident) (durationMs : Int64) (cfg : EvalConfig) :
    injectedMs incidents durationMs cfg = .ofInt (∑ assetId ∈ assetsOf incidents,
      (min (assetMs (spansOf incidents cfg assetId)) durationMs).toInt) := by
  have hfold := foldl_add_ofInt (byAsset incidents cfg).entries
    (fun entry => min (assetMs entry.2) durationMs) 0
  have hentries : (byAsset incidents cfg).entries.map
        (fun entry => (min (assetMs entry.2) durationMs).toInt) =
      (byAsset incidents cfg).keys.map fun assetId =>
        (min (assetMs (spansOf incidents cfg assetId)) durationMs).toInt := by
    rw [BTreeMap.keys, List.map_map]
    refine List.map_congr_left fun entry hentry => ?_
    have hget := BTreeMap.mem_entries_iff.mp hentry
    rw [get?_byAsset] at hget
    split at hget
    · cases hget
    · rw [← Option.some.inj hget]
      rfl
  rw [hentries, ← List.sum_toFinset _ (BTreeMap.nodup_keys _), keys_byAsset, zero_add] at hfold
  exact hfold

/-! ## 4. What the injected time depends on -/

/-- The windows end no earlier than they start. -/
def Forward (cfg : EvalConfig) (incidents : List Incident) : Prop :=
  ∀ inc ∈ incidents, inc.tInjectMs ≤ cfg.windowEnd inc

/-- The points of time in the windows of an asset. -/
def windows (incidents : List Incident) (cfg : EvalConfig) (assetId : String) : Set ℝ :=
  covered ((spansOf incidents cfg assetId).map ints)

/-- **The sweep measures the windows.** A window that ended before it starts would be swept as a
negative length, which is what `Forward` keeps out. -/
theorem sweep_sortedInts {incidents : List Incident} {cfg : EvalConfig}
    (h : Forward cfg incidents) (assetId : String) :
    (sweep (sortedInts (spansOf incidents cfg assetId)) : ℝ) =
      volume.real (windows incidents cfg assetId) := by
  have hsorted := pairwise_sortedInts (spansOf incidents cfg assetId)
  have hperm : (sortedInts (spansOf incidents cfg assetId)).Perm
      ((spansOf incidents cfg assetId).map ints) :=
    (List.perm_insertionSort Span.le _).map ints
  rw [sweep_eq_volume hsorted, covered_perm hperm, windows]
  intro p hp
  obtain ⟨span, hspan, rfl⟩ := List.mem_map.mp (hperm.mem_iff.mp hp)
  obtain ⟨inc, hinc, -, rfl⟩ := mem_spansOf.mp hspan
  exact Int64.le_iff_toInt_le.mp (h inc hinc)

/-- **Windows that cover the same give the same**, whether or not the sums fit. -/
theorem injectedMs_congr {incidents incidents' : List Incident} {cfg : EvalConfig}
    (durationMs : Int64) (h : Forward cfg incidents) (h' : Forward cfg incidents')
    (hassets : assetsOf incidents' = assetsOf incidents)
    (hwindows : ∀ assetId, windows incidents' cfg assetId = windows incidents cfg assetId) :
    injectedMs incidents' durationMs cfg = injectedMs incidents durationMs cfg := by
  have hasset : ∀ assetId, assetMs (spansOf incidents' cfg assetId) =
      assetMs (spansOf incidents cfg assetId) := by
    intro assetId
    have hsweep : (sweep (sortedInts (spansOf incidents' cfg assetId)) : ℝ) =
        sweep (sortedInts (spansOf incidents cfg assetId)) := by
      rw [sweep_sortedInts h', sweep_sortedInts h, hwindows]
    rw [assetMs_eq, assetMs_eq, Int.cast_inj.mp hsweep]
  rw [injectedMs_eq, injectedMs_eq, hassets]
  simp only [hasset]

/-- **A window within another one of its asset** adds nothing, and one that is there already
neither. -/
theorem injectedMs_cons {incidents : List Incident} {cfg : EvalConfig} (durationMs : Int64)
    (h : Forward cfg incidents) {inc inc' : Incident} (hinc : inc ∈ incidents)
    (hasset : inc'.assetId = inc.assetId) (hstart : inc.tInjectMs ≤ inc'.tInjectMs)
    (hforward : inc'.tInjectMs ≤ cfg.windowEnd inc')
    (hstop : cfg.windowEnd inc' ≤ cfg.windowEnd inc) :
    injectedMs (inc' :: incidents) durationMs cfg = injectedMs incidents durationMs cfg := by
  refine injectedMs_congr durationMs h (List.forall_mem_cons.mpr ⟨hforward, h⟩) ?_ fun assetId => ?_
  · unfold assetsOf
    rw [List.map_cons, List.toFinset_cons, hasset]
    exact Finset.insert_eq_of_mem (List.mem_toFinset.mpr (List.mem_map_of_mem hinc))
  · refine Set.Subset.antisymm (covered_subset ?_) (covered_subset ?_)
    · intro p hp
      obtain ⟨span, hspan, rfl⟩ := List.mem_map.mp hp
      obtain ⟨one, hone, hid, rfl⟩ := mem_spansOf.mp hspan
      rcases List.mem_cons.mp hone with rfl | hone
      · refine ⟨ints (inc.tInjectMs, cfg.windowEnd inc), List.mem_map_of_mem
          (mem_spansOf.mpr ⟨inc, hinc, hasset.symm.trans hid, rfl⟩), ?_, ?_⟩
        · exact Int64.le_iff_toInt_le.mp hstart
        · exact Int64.le_iff_toInt_le.mp hstop
      · exact ⟨_, List.mem_map_of_mem (mem_spansOf.mpr ⟨one, hone, hid, rfl⟩), Int.le_refl _,
          Int.le_refl _⟩
    · intro p hp
      obtain ⟨span, hspan, rfl⟩ := List.mem_map.mp hp
      obtain ⟨one, hone, hid, rfl⟩ := mem_spansOf.mp hspan
      exact ⟨_, List.mem_map_of_mem (mem_spansOf.mpr ⟨one, List.mem_cons_of_mem _ hone, hid, rfl⟩),
        Int.le_refl _, Int.le_refl _⟩

theorem injectedMs_perm {incidents incidents' : List Incident} {cfg : EvalConfig}
    (durationMs : Int64) (h : Forward cfg incidents) (hperm : incidents'.Perm incidents) :
    injectedMs incidents' durationMs cfg = injectedMs incidents durationMs cfg := by
  refine injectedMs_congr durationMs h (fun inc hinc => h inc (hperm.mem_iff.mp hinc)) ?_
    fun assetId => ?_
  · exact List.toFinset_eq_of_perm _ _ (hperm.map _)
  · exact covered_perm (((hperm.filter _).map _).map ints)

/-! ## 5. Where the sums fit -/

/-- What the windows of the assets add to the injected time. -/
noncomputable def shares (incidents : List Incident) (durationMs : Int64) (cfg : EvalConfig) : ℝ :=
  ∑ assetId ∈ assetsOf incidents,
    min (durationMs.toInt : ℝ) (volume.real (windows incidents cfg assetId))

/-- The windows of each asset, and all shares together, fit in an `i64`.  A share is the measure
of the windows or the duration, whichever is less. -/
structure Fits (incidents : List Incident) (durationMs : Int64) (cfg : EvalConfig) : Prop where
  windows_lt : ∀ assetId, volume.real (windows incidents cfg assetId) < 2 ^ 63
  le_shares : -2 ^ 63 ≤ shares incidents durationMs cfg
  shares_lt : shares incidents durationMs cfg < 2 ^ 63

theorem injectedMs_eq_shares {incidents : List Incident} {durationMs : Int64} {cfg : EvalConfig}
    (h : Forward cfg incidents) (hfits : Fits incidents durationMs cfg) :
    ((injectedMs incidents durationMs cfg).toInt : ℝ) = shares incidents durationMs cfg := by
  have hasset : ∀ assetId,
      ((min (assetMs (spansOf incidents cfg assetId)) durationMs).toInt : ℝ) =
        min (durationMs.toInt : ℝ) (volume.real (windows incidents cfg assetId)) := by
    intro assetId
    have hsweep := sweep_sortedInts h assetId
    have hlt := hfits.windows_lt assetId
    have hnonneg : 0 ≤ volume.real (windows incidents cfg assetId) := measureReal_nonneg
    rw [← hsweep] at hlt hnonneg ⊢
    have hlt' : sweep (sortedInts (spansOf incidents cfg assetId)) < 2 ^ 63 := by
      exact_mod_cast hlt
    have hnonneg' : 0 ≤ sweep (sortedInts (spansOf incidents cfg assetId)) := by
      exact_mod_cast hnonneg
    rw [toInt_min, assetMs_eq, Int64.toInt_ofInt_of_le (by omega) (by omega), min_comm,
      Int.cast_min]
  have hsum : ((∑ assetId ∈ assetsOf incidents,
      (min (assetMs (spansOf incidents cfg assetId)) durationMs).toInt : ℤ) : ℝ) =
        shares incidents durationMs cfg := by
    rw [Int.cast_sum]
    exact Finset.sum_congr rfl fun assetId _ => hasset assetId
  have hle := hfits.le_shares
  have hlt := hfits.shares_lt
  rw [← hsum] at hle hlt ⊢
  rw [injectedMs_eq, Int64.toInt_ofInt_of_le]
  · exact_mod_cast hle
  · exact_mod_cast hlt

/-- The sums fit when the windows lie within the range of an `i64` of each other and the duration
fits for all assets together. -/
theorem fits_of_within {incidents : List Incident} {durationMs : Int64} {cfg : EvalConfig}
    {lo hi : ℤ} (hle : lo ≤ hi) (hrange : hi - lo < 2 ^ 63)
    (hin : ∀ inc ∈ incidents, lo ≤ inc.tInjectMs.toInt ∧ (cfg.windowEnd inc).toInt ≤ hi)
    (hduration : 0 ≤ durationMs.toInt)
    (hall : (assetsOf incidents).card * durationMs.toInt < 2 ^ 63) :
    Fits incidents durationMs cfg := by
  have hduration' : (0 : ℝ) ≤ durationMs.toInt := by exact_mod_cast hduration
  refine ⟨fun assetId => ?_, ?_, ?_⟩
  · have hsubset : windows incidents cfg assetId ⊆ Set.Icc (lo : ℝ) hi := by
      rw [← covered_singleton (lo, hi)]
      refine covered_subset fun p hp => ⟨(lo, hi), List.mem_singleton_self _, ?_⟩
      obtain ⟨span, hspan, rfl⟩ := List.mem_map.mp hp
      obtain ⟨inc, hinc, -, rfl⟩ := mem_spansOf.mp hspan
      exact hin inc hinc
    calc volume.real (windows incidents cfg assetId)
        ≤ volume.real (Set.Icc (lo : ℝ) hi) := measureReal_mono hsubset measure_Icc_lt_top.ne
      _ = ((hi - lo : ℤ) : ℝ) := by
          rw [Real.volume_real_Icc_of_le (by exact_mod_cast hle), Int.cast_sub]
      _ < 2 ^ 63 := by exact_mod_cast hrange
  · refine le_trans (by norm_num) (Finset.sum_nonneg fun assetId _ => ?_)
    exact le_min hduration' measureReal_nonneg
  · calc shares incidents durationMs cfg
        ≤ (assetsOf incidents).card • (durationMs.toInt : ℝ) :=
          Finset.sum_le_card_nsmul _ _ _ fun assetId _ => min_le_left _ _
      _ = (((assetsOf incidents).card * durationMs.toInt : ℤ) : ℝ) := by
          rw [nsmul_eq_mul]
          push_cast
          rfl
      _ < 2 ^ 63 := by exact_mod_cast hall

/-- **The injected time is the measure of the windows** of each asset, no more than the duration
of the run, summed over the assets, where these sums fit.  In any case it is the same for the
incidents in another order, and with a further one whose window is within that of another of its
asset.  `h` says that windows end no earlier than they start: an incident that ends before it
begins, or a sum that wraps around, would give a window that runs backwards.  `Fits` is asked only
where integers are compared with words. -/
theorem injected_ms_exact (incidents : List Incident) (durationMs : Int64) (cfg : EvalConfig)
    (h : Forward cfg incidents) :
    (Fits incidents durationMs cfg →
      ((injectedMs incidents durationMs cfg).toInt : ℝ) = ∑ assetId ∈ assetsOf incidents,
        min (durationMs.toInt : ℝ) (volume.real (windows incidents cfg assetId))) ∧
    (∀ incidents', incidents'.Perm incidents →
      injectedMs incidents' durationMs cfg = injectedMs incidents durationMs cfg) ∧
    (∀ inc ∈ incidents,
      injectedMs (inc :: incidents) durationMs cfg = injectedMs incidents durationMs cfg) ∧
    ∀ inc ∈ incidents, ∀ inc', inc'.assetId = inc.assetId → inc.tInjectMs ≤ inc'.tInjectMs →
      inc'.tInjectMs ≤ cfg.windowEnd inc' → cfg.windowEnd inc' ≤ cfg.windowEnd inc →
        injectedMs (inc' :: incidents) durationMs cfg = injectedMs incidents durationMs cfg := by
  refine ⟨injectedMs_eq_shares h, fun incidents' => injectedMs_perm durationMs h,
    fun inc hinc => ?_, fun inc hinc inc' => injectedMs_cons durationMs h hinc⟩
  exact injectedMs_cons durationMs h hinc rfl (Int64.le_refl _) (h inc hinc) (Int64.le_refl _)

/-- A fault of an asset, from one time to another. -/
def fault (assetId : String) (tInjectMs tEndMs : Int64) : Incident :=
  ⟨assetId, .ugv, .fcFailure, tInjectMs, tEndMs, tInjectMs, [.heartbeat], false, true⟩

theorem forward_fault : Forward {} [fault "a" 60000 90000, fault "a" 110000 150000] := by
  unfold Forward
  decide

theorem fits_fault : Fits [fault "a" 60000 90000, fault "a" 110000 150000] 300000 {} := by
  have hin : ∀ inc ∈ [fault "a" 60000 90000, fault "a" 110000 150000],
      (60000 : ℤ) ≤ inc.tInjectMs.toInt ∧
        ((({} : EvalConfig).windowEnd inc).toInt : ℤ) ≤ 180000 := by decide
  exact fits_of_within (by decide) (by decide) hin (by decide) (by decide)

/-- Two windows that overlap: from 60 to 120 and from 110 to 180 seconds. -/
theorem injected_ms_exact_overlapping :
    ((injectedMs [fault "a" 60000 90000, fault "a" 110000 150000] 300000 {}).toInt : ℝ) =
        ∑ assetId ∈ assetsOf [fault "a" 60000 90000, fault "a" 110000 150000],
          min ((300000 : Int64).toInt : ℝ)
            (volume.real (windows [fault "a" 60000 90000, fault "a" 110000 150000] {} assetId)) ∧
    injectedMs [fault "a" 60000 90000, fault "a" 110000 150000] 300000 {} = 120000 :=
  ⟨(injected_ms_exact _ 300000 {} forward_fault).1 fits_fault, by decide⟩

/-- A window from the first to the last `i64` is 2^64 - 1 milliseconds long, and its length wraps
to -1. -/
theorem injected_ms_wraps :
    Forward {} [fault "a" Int64.minValue (Int64.maxValue - 30000)] ∧
      injectedMs [fault "a" Int64.minValue (Int64.maxValue - 30000)] 180000 {} = -1 ∧
      ¬ ((injectedMs [fault "a" Int64.minValue (Int64.maxValue - 30000)] 180000 {}).toInt : ℝ) =
        ∑ assetId ∈ assetsOf [fault "a" Int64.minValue (Int64.maxValue - 30000)],
          min ((180000 : Int64).toInt : ℝ) (volume.real
            (windows [fault "a" Int64.minValue (Int64.maxValue - 30000)] {} assetId)) := by
  have hforward : Forward {} [fault "a" Int64.minValue (Int64.maxValue - 30000)] := by
    unfold Forward
    decide
  have hvalue : injectedMs [fault "a" Int64.minValue (Int64.maxValue - 30000)] 180000 {} = -1 := by
    decide
  refine ⟨hforward, hvalue, fun h => ?_⟩
  have hnonneg : 0 ≤ ∑ assetId ∈ assetsOf [fault "a" Int64.minValue (Int64.maxValue - 30000)],
      min ((180000 : Int64).toInt : ℝ) (volume.real
        (windows [fault "a" Int64.minValue (Int64.maxValue - 30000)] {} assetId)) := by
    refine Finset.sum_nonneg fun assetId _ => le_min ?_ measureReal_nonneg
    have hduration : (0 : ℤ) ≤ (180000 : Int64).toInt := by decide
    exact_mod_cast hduration
  have hminus : (-1 : Int64).toInt = -1 := by decide
  rw [← h, hvalue, hminus] at hnonneg
  norm_num at hnonneg

end Musubi.Pipeline.Eval
