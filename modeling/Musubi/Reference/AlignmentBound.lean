/-
# An alignment covers its anchors

`estimate_alignment` takes the median of the offsets of the anchors and a bound that no anchor is
further away from than that.  It is read here a second time, every subtraction, sum and cast in
the type that the source gives it: none of them wraps.  The uncertainty that drift adds is
computed in `f64`; all that matters of it is that it is not negative, so any such term may stand
in its place.

An anchor is a reading of the device clock with the wall time that was recorded beside it.  The
bound is the largest distance of an offset from the median, the spread, and the drift comes on
top.  That every anchor is covered is then two lines: its offset is one of those that the median
was taken of, so it is no further away than the spread (`abs_sub_median_le`), and what is added is
not negative.

Most of the module is about the arithmetic.  Readings have 64 bits, offsets are taken in 128,
where two readings leave room for sums and absolute values; medians of two are a sum and a half;
the result is cast back to 64 bits, and an alignment whose offset or bound does not fit has none.
The only sum that could leave 128 bits is that of the spread and an arbitrary drift, which is why
`Fits128` occurs, and the source's own drift is far below (`driftBound_range`).

The anchors are sorted by the device clock first, so the order of the observations has no part in
any of it (section 7).
-/
import Musubi.FloatRange
import Musubi.Lib.CheckedInt
import Musubi.Lib.Result
import Musubi.Reference.RelativeRate

namespace Musubi.Reference

open Lib Lib.Checked

/-! ## 1. The operations of the source -/

section Operations

variable {ε : Type}

/-- `a - b` on `u64`. -/
def subU64 (a b : ℤ) : Checked ε ℤ :=
  if 0 ≤ a - b ∧ a - b < 2 ^ 64 then .ok (a - b) else .error .panic

/-- `a.saturating_sub(b)` on `u64`. -/
def satSubU64 (a b : ℤ) : ℤ := max (a - b) 0

/-- `abs`, which the least integer has none of. -/
def abs128 (v : ℤ) : Checked ε ℤ := fit128 |v|

/-- `i128::from(a) - i128::from(b)`. -/
def checkedOffset (p : Anchor) : Checked ε ℤ := sub128 p.2 p.1

/-- `windows(2).any(..)`. -/
def anyDiscontinuity : List ℤ → Checked ε Bool
  | o :: o' :: offsets => do
    let change ← sub128 o' o
    let size ← abs128 change
    if discontinuityUs ≤ size then return true else anyDiscontinuity (o' :: offsets)
  | _ => return false

def checkedDistance (median offset : ℤ) : Checked ε ℤ := do
  let d ← sub128 offset median
  abs128 d

/-- `if anchors.len() == 1 { log_last_boot - first_boot } else { 0 }`. -/
def checkedSinceFirst (anchors : ℕ) (logLastBoot firstBoot : ℤ) : Checked ε ℤ :=
  if anchors = 1 then subU64 logLastBoot firstBoot else .ok 0

/-- `((p[1].0 - p[0].0) / 1000) as i64`. -/
def checkedGapMs (pair : Anchor × Anchor) : Checked ε ℤ := do
  let gap ← subU64 pair.2.1 pair.1.1
  i64 (gap / 1000)

end Operations

/-- `filter_map(|o| o.t_boot_us)`. -/
def bootReadings (obs : List Observation) : List ℤ :=
  obs.filterMap fun o => o.tBootUs.map fun b => (b.toNat : ℤ)

/-- What the alignment is, once the median and the bound are known. -/
def alignmentAt (defaultBasis : ClockBasis) (anchors : ℕ) (discontinuity : Bool)
    (median bound tailGapMs innerGapMs : ℤ) : TimeAlignment where
  basis := estimatedBasis defaultBasis discontinuity tailGapMs innerGapMs
  offset := some {
    offsetUs := .ofInt median
    boundUs := max (.ofInt bound) 1
    source := .inLogAnchor
    anchors := .ofNat anchors
    discontinuity }

def unrepresentable (defaultBasis : ClockBasis) : TimeAlignment where
  basis := if defaultBasis = .hostReceived then .hostReceived else .gpsSuspect
  offset := none

/-- With anchors, the first of them `first`; `drift` is the uncertainty that drift adds. -/
def checkedAnchored (drift : ℤ → ℤ → ℤ) (obs : List Observation) (defaultBasis : ClockBasis)
    (first : Anchor) (rest : List Anchor) : Checked Empty TimeAlignment := do
  let anchors := first :: rest
  let offsets ← anchors.mapM checkedOffset
  let discontinuity ← anyDiscontinuity offsets
  let median ← index (offsets.insertionSort (· ≤ ·)) (offsets.length / 2)
  let distances ← offsets.mapM (checkedDistance median)
  let spread := largest 0 distances
  let lastBoot := (rest.getLastD first).1
  let logLastBoot := (bootReadings obs).max?.getD lastBoot
  let sinceFirst ← checkedSinceFirst anchors.length logLastBoot first.1
  let bound ← add128 spread (drift (satSubU64 logLastBoot lastBoot) sinceFirst)
  if InI64 median ∧ InI64 bound then do
    let tailGapMs ← i64 (satSubU64 logLastBoot lastBoot / 1000)
    let innerGapsMs ← (consecutive anchors).mapM checkedGapMs
    return alignmentAt defaultBasis anchors.length discontinuity median bound tailGapMs
      (largest 0 innerGapsMs)
  else return unrepresentable defaultBasis

/-- **The estimate as the source computes it**, a panic wherever an operation would wrap.  The
drift is a parameter. -/
def checkedAlignment (drift : ℤ → ℤ → ℤ) (obs : List Observation) (defaultBasis : ClockBasis) :
    Checked Empty TimeAlignment :=
  match sortedAnchors obs with
  | [] =>
    return { basis := if isHostAxis defaultBasis then defaultBasis else .bootRelative
             offset := none }
  | first :: rest => checkedAnchored drift obs defaultBasis first rest

/-- `to_wall_us`, its sum in `i128`. -/
def checkedToWallUs (al : TimeAlignment) (tBootUs : UInt64) :
    Checked Empty (Option (Int64 × Int64)) :=
  match al.offset with
  | none => return none
  | some o => do
    let wall ← add128 tBootUs.toNat o.offsetUs.toInt
    return if InI64 wall then some (.ofInt wall, o.boundUs) else none

/-! ## 2. Medians and spreads -/

def offsetsOf (anchors : List Anchor) : List ℤ := anchors.map fun p => p.2 - p.1

def medianOf (offsets : List ℤ) : ℤ := (offsets.insertionSort (· ≤ ·)).getD (offsets.length / 2) 0

def spreadOf (offsets : List ℤ) : ℤ := largest 0 (offsets.map fun o => |o - medianOf offsets|)

theorem start_le_largest (values : List ℤ) : ∀ start, start ≤ largest start values := by
  induction values with
  | nil => exact fun start => le_rfl
  | cons v values ih => exact fun start => (le_max_left start v).trans (ih (max start v))

theorem le_largest {v : ℤ} (values : List ℤ) : ∀ start, v ∈ values → v ≤ largest start values := by
  induction values with
  | nil => exact fun start h => nomatch h
  | cons w values ih =>
    intro start h
    rcases List.mem_cons.mp h with rfl | h
    · exact (le_max_right start v).trans (start_le_largest values _)
    · exact ih (max start w) h

theorem largest_le {bound : ℤ} (values : List ℤ) : ∀ start, start ≤ bound →
    (∀ v ∈ values, v ≤ bound) → largest start values ≤ bound := by
  induction values with
  | nil => exact fun start h _ => h
  | cons v values ih =>
    intro start h hall
    exact ih (max start v) (max_le h (hall v (by simp))) fun w hw => hall w (by simp [hw])

theorem largest_mem (values : List ℤ) : ∀ start, largest start values ∈ start :: values := by
  induction values with
  | nil => exact fun start => List.mem_singleton_self _
  | cons v values ih =>
    intro start
    rcases List.mem_cons.mp (ih (max start v)) with h | h
    · rw [largest, List.foldl_cons, ← largest, h]
      rcases max_choice start v with h | h
      · simp [h]
      · simp [h]
    · exact List.mem_cons_of_mem _ (List.mem_cons_of_mem _ h)

theorem index_median {ε : Type} {offsets : List ℤ} (hne : offsets ≠ []) :
    (index (offsets.insertionSort (· ≤ ·)) (offsets.length / 2) : Checked ε ℤ) =
      .ok (medianOf offsets) := by
  have hlength : offsets.length / 2 < (offsets.insertionSort (· ≤ ·)).length := by
    rw [List.length_insertionSort]
    exact Nat.div_lt_self (List.length_pos_of_ne_nil hne) (by decide)
  rw [index, medianOf, List.getD_eq_getElem?_getD, List.getElem?_eq_getElem hlength]
  rfl

theorem medianOf_mem {offsets : List ℤ} (hne : offsets ≠ []) : medianOf offsets ∈ offsets := by
  have hlength : offsets.length / 2 < (offsets.insertionSort (· ≤ ·)).length := by
    rw [List.length_insertionSort]
    exact Nat.div_lt_self (List.length_pos_of_ne_nil hne) (by decide)
  refine (List.perm_insertionSort (· ≤ ·) offsets).mem_iff.mp ?_
  rw [medianOf, List.getD_eq_getElem?_getD, List.getElem?_eq_getElem hlength]
  exact List.getElem_mem hlength

/-- **No offset is further from the median than the spread**, because the spread is the largest of
these distances. -/
theorem abs_sub_median_le {offsets : List ℤ} {o : ℤ} (h : o ∈ offsets) :
    |o - medianOf offsets| ≤ spreadOf offsets :=
  le_largest _ 0 (List.mem_map.mpr ⟨o, h, rfl⟩)

/-! ## 3. Consecutive anchors -/

/-- Two anchors in a row whose offsets are a second or more apart. -/
def discontinuous (anchors : List Anchor) : Bool :=
  (consecutive anchors).any fun (p, q) =>
    decide (discontinuityUs ≤ |(q.2 - q.1) - (p.2 - p.1)|)

theorem discontinuous_iff (anchors : List Anchor) :
    discontinuous anchors = true ↔ ∃ before p q after, anchors = before ++ p :: q :: after ∧
      discontinuityUs ≤ |(q.2 - q.1) - (p.2 - p.1)| := by
  unfold discontinuous
  rw [List.any_eq_true]
  constructor
  · rintro ⟨⟨p, q⟩, hmem, h⟩
    obtain ⟨before, after, hsplit⟩ := (mem_consecutive_iff anchors).mp hmem
    exact ⟨before, p, q, after, hsplit, of_decide_eq_true h⟩
  · rintro ⟨before, p, q, after, hsplit, h⟩
    exact ⟨(p, q), (mem_consecutive_iff anchors).mpr ⟨before, after, hsplit⟩, decide_eq_true h⟩

/-! ## 4. No operation wraps -/

section NoWrap

variable {ε : Type} {anchors : List Anchor}

theorem mapM_eq_map {α β : Type} {f : α → Checked ε β} {g : α → β} {l : List α}
    (h : ∀ a ∈ l, f a = .ok (g a)) : l.mapM f = .ok (l.map g) := by
  rw [mapM_eq_ok, List.forall₂_map_right_iff, List.forall₂_same]
  exact h

/-- The difference of an `i64` and a `u64`. -/
theorem InRange.offset {p : Anchor} (h : InRange p) :
    -2 ^ 65 < p.2 - p.1 ∧ p.2 - p.1 < 2 ^ 65 := by
  obtain ⟨_, _, _, _⟩ := h
  constructor
  · omega
  · omega

theorem checkedOffset_eq {p : Anchor} (h : InRange p) :
    (checkedOffset p : Checked ε ℤ) = .ok (p.2 - p.1) := by
  obtain ⟨hlow, hhigh⟩ := h.offset
  rw [checkedOffset, sub128, fit128_eq (by constructor <;> omega)]

theorem anyDiscontinuity_eq (h : ∀ p ∈ anchors, InRange p) :
    (anyDiscontinuity (offsetsOf anchors) : Checked ε Bool) = .ok (discontinuous anchors) := by
  induction anchors with
  | nil => rfl
  | cons p anchors ih =>
    cases anchors with
    | nil => rfl
    | cons q anchors =>
      obtain ⟨hp0, hp⟩ := (h p (by simp)).offset
      obtain ⟨hq0, hq⟩ := (h q (by simp)).offset
      have hchange : |(q.2 - q.1) - (p.2 - p.1)| ≤ 2 ^ 67 := by
        rw [abs_le]
        constructor
        · omega
        · omega
      have hsize : |(|(q.2 - q.1) - (p.2 - p.1)|)| ≤ 2 ^ 67 := by rwa [abs_abs]
      have ih := ih fun r hr => h r (List.mem_cons_of_mem _ hr)
      have hcons : discontinuous (p :: q :: anchors) =
          (decide (discontinuityUs ≤ |(q.2 - q.1) - (p.2 - p.1)|) ||
            discontinuous (q :: anchors)) := rfl
      rw [offsetsOf, List.map_cons, List.map_cons, anyDiscontinuity, sub128,
        fit128_eq (fits128_of_abs_le hchange (by decide)), ok_bind, abs128,
        fit128_eq (fits128_of_abs_le hsize (by decide)), ok_bind, hcons]
      split
      · rename_i hfar
        rw [decide_eq_true hfar, Bool.true_or]
        rfl
      · rename_i hnear
        rw [decide_eq_false hnear, Bool.false_or]
        exact ih

theorem offset_of_mem {o : ℤ} (h : ∀ p ∈ anchors, InRange p) (ho : o ∈ offsetsOf anchors) :
    -2 ^ 65 < o ∧ o < 2 ^ 65 := by
  obtain ⟨p, hp, rfl⟩ := List.mem_map.mp ho
  exact (h p hp).offset

theorem abs_distance_le {o m : ℤ} (h : ∀ p ∈ anchors, InRange p) (ho : o ∈ offsetsOf anchors)
    (hm : m ∈ offsetsOf anchors) : |o - m| ≤ 2 ^ 66 := by
  obtain ⟨_, _⟩ := offset_of_mem h ho
  obtain ⟨_, _⟩ := offset_of_mem h hm
  rw [abs_le]
  constructor
  · omega
  · omega

theorem checkedDistance_eq {o m : ℤ} (h : ∀ p ∈ anchors, InRange p)
    (ho : o ∈ offsetsOf anchors) (hm : m ∈ offsetsOf anchors) :
    (checkedDistance m o : Checked ε ℤ) = .ok |o - m| := by
  have hd := abs_distance_le h ho hm
  have hsize : |(|o - m|)| ≤ 2 ^ 66 := by rwa [abs_abs]
  rw [checkedDistance, sub128, fit128_eq (fits128_of_abs_le hd (by decide)), ok_bind, abs128,
    fit128_eq (fits128_of_abs_le hsize (by decide))]

theorem spreadOf_le (h : ∀ p ∈ anchors, InRange p) (hne : anchors ≠ []) :
    0 ≤ spreadOf (offsetsOf anchors) ∧ spreadOf (offsetsOf anchors) ≤ 2 ^ 66 := by
  have hne : offsetsOf anchors ≠ [] := fun h => hne (List.map_eq_nil_iff.mp h)
  refine ⟨start_le_largest _ 0, largest_le _ 0 (by decide) fun v hv => ?_⟩
  obtain ⟨o, ho, rfl⟩ := List.mem_map.mp hv
  exact abs_distance_le h ho (medianOf_mem hne)

theorem checkedGapMs_eq {p q : Anchor} (hp : InRange p) (hq : InRange q) (hle : anchorLe p q) :
    (checkedGapMs (p, q) : Checked ε ℤ) = .ok ((q.1 - p.1) / 1000) := by
  obtain ⟨_, _, _, _⟩ := hp
  obtain ⟨_, _, _, _⟩ := hq
  have hgap : 0 ≤ q.1 - p.1 ∧ q.1 - p.1 < 2 ^ 64 := by
    unfold anchorLe at hle
    constructor
    · omega
    · omega
  have hms : InI64 ((q.1 - p.1) / 1000) := by
    constructor
    · omega
    · omega
  rw [checkedGapMs, subU64, if_pos hgap, ok_bind]
  exact i64_eq hms

end NoWrap

/-! ## 5. The estimate -/

section Estimate

variable (drift : ℤ → ℤ → ℤ) (obs : List Observation) (first : Anchor) (rest : List Anchor)

/-- The last reading of the device clock. -/
def logLastBoot : ℤ := largest (rest.getLastD first).1 (bootReadings obs)

/-- The spread of the offsets, and what drift adds on the stretches without an anchor. -/
def boundOf : ℤ :=
  spreadOf (offsetsOf (first :: rest)) +
    drift (logLastBoot obs first rest - (rest.getLastD first).1)
      (if rest.isEmpty then logLastBoot obs first rest - first.1 else 0)

def resultAt (defaultBasis : ClockBasis) : TimeAlignment :=
  if InI64 (medianOf (offsetsOf (first :: rest))) ∧ InI64 (boundOf drift obs first rest) then
    alignmentAt defaultBasis (first :: rest).length (discontinuous (first :: rest))
      (medianOf (offsetsOf (first :: rest))) (boundOf drift obs first rest)
      ((logLastBoot obs first rest - (rest.getLastD first).1) / 1000)
      (largest 0 ((consecutive (first :: rest)).map fun (p, q) => (q.1 - p.1) / 1000))
  else unrepresentable defaultBasis

variable {drift obs first rest}

theorem mem_bootReadings {p : Anchor} (h : p ∈ recordedAnchors obs) : p.1 ∈ bootReadings obs := by
  obtain ⟨o, ho, hanchor⟩ := List.mem_filterMap.mp h
  unfold anchorOf at hanchor
  split at hanchor
  · next boot wall hboot _ =>
    cases hanchor
    exact List.mem_filterMap.mpr ⟨o, ho, by rw [hboot]; rfl⟩
  · cases hanchor

theorem bootReading_range {b : ℤ} (h : b ∈ bootReadings obs) : 0 ≤ b ∧ b < 2 ^ 64 := by
  obtain ⟨o, _, ho⟩ := List.mem_filterMap.mp h
  obtain ⟨boot, _, rfl⟩ := Option.map_eq_some_iff.mp ho
  have hlt := boot.toNat_lt
  constructor
  · omega
  · omega

theorem mem_of_sortedAnchors {p : Anchor} (h : sortedAnchors obs = first :: rest)
    (hp : p ∈ first :: rest) : p ∈ recordedAnchors obs :=
  mem_recorded_of_mem_sorted (h ▸ hp)

theorem logLastBoot_eq (h : sortedAnchors obs = first :: rest) (lastBoot : ℤ) :
    (bootReadings obs).max?.getD lastBoot = logLastBoot obs first rest := by
  have hlast : (rest.getLastD first).1 ∈ bootReadings obs :=
    mem_bootReadings (mem_of_sortedAnchors h (List.getLastD_mem_cons))
  have hmax : (bootReadings obs).max? = some (logLastBoot obs first rest) := by
    rw [List.max?_eq_some_iff]
    refine ⟨?_, fun b hb => le_largest _ _ hb⟩
    rcases List.mem_cons.mp (largest_mem (bootReadings obs) (rest.getLastD first).1) with hm | hm
    · rw [logLastBoot, hm]
      exact hlast
    · exact hm
  rw [hmax, Option.getD_some]

theorem logLastBoot_range (h : sortedAnchors obs = first :: rest) :
    (rest.getLastD first).1 ≤ logLastBoot obs first rest ∧
      logLastBoot obs first rest < 2 ^ 64 := by
  refine ⟨start_le_largest _ _, ?_⟩
  have hlast := mem_bootReadings (mem_of_sortedAnchors h (List.getLastD_mem_cons))
  rcases List.mem_cons.mp (largest_mem (bootReadings obs) (rest.getLastD first).1) with hm | hm
  · rw [logLastBoot, hm]
    exact (bootReading_range hlast).2
  · exact (bootReading_range hm).2

/-- **Nothing wraps before the sum of spread and drift, and nothing after it.** So for an
arbitrary drift this sum is the one condition. -/
theorem checkedAnchored_eq (h : sortedAnchors obs = first :: rest) (defaultBasis : ClockBasis) :
    checkedAnchored drift obs defaultBasis first rest =
      if Fits128 (boundOf drift obs first rest) then
        .ok (resultAt drift obs first rest defaultBasis)
      else .error .panic := by
  have hrange : ∀ p ∈ first :: rest, InRange p := fun p hp =>
    inRange_of_mem (mem_of_sortedAnchors h hp)
  have hoffsets : (first :: rest).mapM checkedOffset =
      (.ok (offsetsOf (first :: rest)) : Checked Empty (List ℤ)) :=
    mapM_eq_map fun p hp => checkedOffset_eq (hrange p hp)
  have hne : offsetsOf (first :: rest) ≠ [] := List.cons_ne_nil _ _
  have hdistances : (offsetsOf (first :: rest)).mapM
      (checkedDistance (medianOf (offsetsOf (first :: rest)))) =
      (.ok ((offsetsOf (first :: rest)).map
        fun o => |o - medianOf (offsetsOf (first :: rest))|) : Checked Empty (List ℤ)) :=
    mapM_eq_map fun o ho => checkedDistance_eq hrange ho (medianOf_mem hne)
  have hgaps : (consecutive (first :: rest)).mapM checkedGapMs =
      (.ok ((consecutive (first :: rest)).map fun (p, q) => (q.1 - p.1) / 1000) :
        Checked Empty (List ℤ)) := by
    refine mapM_eq_map fun (p, q) hpq => ?_
    obtain ⟨before, after, hsplit⟩ := (mem_consecutive_iff _).mp hpq
    have hsorted := sorted_sortedAnchors obs
    rw [h, hsplit] at hsorted
    have hle : anchorLe p q :=
      List.rel_of_pairwise_cons (List.pairwise_append.mp hsorted).2.1 List.mem_cons_self
    exact checkedGapMs_eq (hrange p (by rw [hsplit]; simp)) (hrange q (by rw [hsplit]; simp)) hle
  obtain ⟨hlast, hlog⟩ := logLastBoot_range h
  have hlast0 := (hrange _ (List.getLastD_mem_cons)).boot_nonneg
  have hbeyond : satSubU64 (logLastBoot obs first rest) (rest.getLastD first).1 =
      logLastBoot obs first rest - (rest.getLastD first).1 := max_eq_left (by omega)
  have hsince : (checkedSinceFirst (first :: rest).length (logLastBoot obs first rest) first.1 :
      Checked Empty ℤ) =
      .ok (if rest.isEmpty then logLastBoot obs first rest - first.1 else 0) := by
    cases rest with
    | nil =>
      have hfirst := (hrange first (by simp)).boot_nonneg
      have hlast : first.1 ≤ logLastBoot obs first [] := hlast
      have hspan : 0 ≤ logLastBoot obs first [] - first.1 ∧
          logLastBoot obs first [] - first.1 < 2 ^ 64 := by
        constructor
        · omega
        · omega
      exact if_pos hspan
    | cons p rest => rfl
  have htail : (i64 ((logLastBoot obs first rest - (rest.getLastD first).1) / 1000) :
      Checked Empty ℤ) = .ok ((logLastBoot obs first rest - (rest.getLastD first).1) / 1000) :=
    i64_eq ⟨by omega, by omega⟩
  unfold checkedAnchored
  simp only [hoffsets, ok_bind, anyDiscontinuity_eq hrange, index_median hne, hdistances,
    logLastBoot_eq h, hbeyond, hsince]
  change (fit128 (boundOf drift obs first rest) >>= _) = _
  unfold fit128
  split
  · rw [ok_bind, resultAt]
    split
    · rw [htail, ok_bind, hgaps, ok_bind]
      rfl
    · rfl
  · rfl

/-- The drift that the source computes. -/
theorem anchoredAlignment_eq (defaultBasis : ClockBasis) :
    anchoredAlignment obs defaultBasis first rest =
      resultAt driftBound obs first rest defaultBasis := rfl

end Estimate

/-! ## 6. Drift -/

/-- The term is not negative, on stretches that a device clock can measure: how far beyond the
last anchor, and how far from the first. -/
def NonnegDrift (drift : ℤ → ℤ → ℤ) : Prop :=
  ∀ beyond sinceFirst, 0 ≤ beyond → beyond < 2 ^ 64 → 0 ≤ sinceFirst → sinceFirst < 2 ^ 64 →
    0 ≤ drift beyond sinceFirst

/-- At 100 ppm the term is no more than 2^72.  It is computed in floats; each of them stays below
a power of two, and rounding keeps it there. -/
theorem driftBound_range {beyond sinceFirst : ℤ} (hb0 : 0 ≤ beyond) (hb : beyond < 2 ^ 64)
    (hs0 : 0 ≤ sinceFirst) (hs : sinceFirst < 2 ^ 64) :
    0 ≤ driftBound beyond sinceFirst ∧ driftBound beyond sinceFirst ≤ 2 ^ 72 := by
  have hsum := (F64.upTo_ofInt hb0 hb.le (by decide)).add (F64.upTo_ofInt hs0 hs.le (by decide))
    (by decide)
  have hppm : (F64.ofRat 100).UpTo 7 := F64.upTo_ofRat (by norm_num) (by norm_num) (by decide)
  have hmicro : (F64.ofRat (1 / 1000000)).UpTo 0 :=
    F64.upTo_ofRat (by norm_num) (by norm_num) (by decide)
  exact ((hsum.mul hppm (by decide)).mul hmicro (by decide)).ceilAsI128 (by decide)

theorem nonnegDrift_driftBound : NonnegDrift driftBound := fun _ _ hb0 hb hs0 hs =>
  (driftBound_range hb0 hb hs0 hs).1

section Sound

variable {drift : ℤ → ℤ → ℤ} {obs : List Observation} {first : Anchor} {rest : List Anchor}

/-- The stretches that drift is asked about.  Both are differences of readings of 64 bits, and
neither is negative, since the last reading of the log is no earlier than an anchor. -/
theorem stretches_range (h : sortedAnchors obs = first :: rest) :
    (0 ≤ logLastBoot obs first rest - (rest.getLastD first).1 ∧
      logLastBoot obs first rest - (rest.getLastD first).1 < 2 ^ 64) ∧
    0 ≤ (if rest.isEmpty then logLastBoot obs first rest - first.1 else 0) ∧
      (if rest.isEmpty then logLastBoot obs first rest - first.1 else 0) < 2 ^ 64 := by
  obtain ⟨hlast, hlog⟩ := logLastBoot_range h
  have hlast0 := (inRange_of_mem (mem_of_sortedAnchors h List.getLastD_mem_cons)).boot_nonneg
  refine ⟨⟨by omega, by omega⟩, ?_⟩
  cases rest with
  | nil =>
    have hlast : first.1 ≤ logLastBoot obs first [] := hlast
    have hfirst : 0 ≤ first.1 := hlast0
    rw [List.isEmpty_nil, if_pos rfl]
    constructor
    · omega
    · omega
  | cons p rest =>
    rw [List.isEmpty_cons, if_neg Bool.false_ne_true]
    exact ⟨le_rfl, by decide⟩

theorem spreadOf_le_boundOf (hdrift : NonnegDrift drift) (h : sortedAnchors obs = first :: rest) :
    spreadOf (offsetsOf (first :: rest)) ≤ boundOf drift obs first rest := by
  obtain ⟨⟨hb0, hb⟩, hs0, hs⟩ := stretches_range h
  have hd := hdrift _ _ hb0 hb hs0 hs
  unfold boundOf
  omega

/-- The sum of the source does not overflow: each of its terms leaves room for the others in 128
bits. -/
theorem fits128_boundOf (h : sortedAnchors obs = first :: rest) :
    Fits128 (boundOf driftBound obs first rest) := by
  obtain ⟨⟨hb0, hb⟩, hs0, hs⟩ := stretches_range h
  obtain ⟨hd0, hd⟩ := driftBound_range hb0 hb hs0 hs
  obtain ⟨hspread0, hspread⟩ := @spreadOf_le (first :: rest)
    (fun p hp => inRange_of_mem (mem_of_sortedAnchors h hp)) (List.cons_ne_nil _ _)
  unfold boundOf
  constructor
  · omega
  · omega

/-- **The source's estimate wraps nowhere.** -/
theorem checkedAlignment_driftBound (obs : List Observation) (defaultBasis : ClockBasis) :
    checkedAlignment driftBound obs defaultBasis = .ok (estimateAlignment obs defaultBasis) := by
  unfold checkedAlignment estimateAlignment
  match h : sortedAnchors obs with
  | [] => rfl
  | first :: rest =>
    dsimp only
    rw [checkedAnchored_eq h, if_pos (fits128_boundOf h), anchoredAlignment_eq]

theorem checkedToWallUs_eq (al : TimeAlignment) (tBootUs : UInt64) :
    checkedToWallUs al tBootUs = .ok (toWallUs al tBootUs) := by
  unfold checkedToWallUs toWallUs
  cases al.offset with
  | none => rfl
  | some o =>
    have hboot := tBootUs.toNat_lt
    have hoffset := inI64_toInt o.offsetUs
    unfold InI64 at hoffset
    have hwall : Fits128 (tBootUs.toNat + o.offsetUs.toInt) := by
      constructor
      · omega
      · omega
    dsimp only
    rw [add128, fit128_eq hwall]
    rfl

/-! ## 7. The order of the observations -/

theorem sortedAnchors_perm {obs' : List Observation} (h : obs.Perm obs') :
    sortedAnchors obs' = sortedAnchors obs :=
  sortDedup_congr fun _ => (h.filterMap anchorOf).symm.mem_iff

theorem max?_perm {l l' : List ℤ} (h : l.Perm l') : l'.max? = l.max? := by
  cases hl : l.max? with
  | none =>
    rw [List.max?_eq_none_iff] at hl ⊢
    subst hl
    exact h.nil_eq.symm
  | some m =>
    rw [List.max?_eq_some_iff] at hl ⊢
    exact ⟨h.mem_iff.mp hl.1, fun b hb => hl.2 b (h.mem_iff.mpr hb)⟩

theorem checkedAlignment_perm (drift : ℤ → ℤ → ℤ) (defaultBasis : ClockBasis)
    {obs' : List Observation} (h : obs.Perm obs') :
    checkedAlignment drift obs' defaultBasis = checkedAlignment drift obs defaultBasis := by
  have hboots : (bootReadings obs').max? = (bootReadings obs).max? := max?_perm (h.filterMap _)
  unfold checkedAlignment
  rw [sortedAnchors_perm h]
  split
  · rfl
  · unfold checkedAnchored
    rw [hboots]

/-! ## 8. What the offset covers -/

theorem toInt_max_one {v : ℤ} (h : InI64 v) : v ≤ (max (Int64.ofInt v) 1).toInt := by
  have hv := toInt_ofInt64 h
  have hone : (1 : Int64).toInt = 1 := rfl
  by_cases hle : Int64.ofInt v ≤ 1
  · have hmax : max (Int64.ofInt v) 1 = 1 := if_pos hle
    have := Int64.le_iff_toInt_le.mp hle
    rw [hmax, hone]
    omega
  · have hmax : max (Int64.ofInt v) 1 = Int64.ofInt v := if_neg hle
    rw [hmax, hv]

/-- An estimate with an offset has a representable median and a representable bound. -/
theorem resultAt_offset_eq_some {defaultBasis : ClockBasis} {o : OffsetEstimate}
    (h : (resultAt drift obs first rest defaultBasis).offset = some o) :
    o.offsetUs.toInt = medianOf (offsetsOf (first :: rest)) ∧
      boundOf drift obs first rest ≤ o.boundUs.toInt ∧
      o.discontinuity = discontinuous (first :: rest) := by
  unfold resultAt at h
  split at h
  · rename_i hfits
    cases h
    exact ⟨toInt_ofInt64 hfits.1, toInt_max_one hfits.2, rfl⟩
  · cases h

theorem resultAt_offset_eq_none_iff {defaultBasis : ClockBasis} :
    (resultAt drift obs first rest defaultBasis).offset = none ↔
      ¬ (InI64 (medianOf (offsetsOf (first :: rest))) ∧
        InI64 (boundOf drift obs first rest)) := by
  unfold resultAt
  split
  · rename_i hfits
    exact iff_of_false nofun (not_not_intro hfits)
  · rename_i hfits
    exact iff_of_true rfl hfits

/-- The checked estimate with an offset is an estimate from anchors: without any the estimate has
no offset to report. -/
theorem exists_anchors {defaultBasis : ClockBasis} {al : TimeAlignment} {o : OffsetEstimate}
    (hal : checkedAlignment drift obs defaultBasis = .ok al) (ho : al.offset = some o) :
    ∃ first rest, sortedAnchors obs = first :: rest ∧
      al = resultAt drift obs first rest defaultBasis := by
  unfold checkedAlignment at hal
  split at hal
  · cases hal
    cases ho
  · rename_i first rest h
    rw [checkedAnchored_eq h] at hal
    split at hal
    · cases hal
      exact ⟨first, rest, h, rfl⟩
    · cases hal

theorem toWallUs_eq_some {al : TimeAlignment} {o : OffsetEstimate} {boot : UInt64}
    {wall bound : Int64} (ho : al.offset = some o) (h : toWallUs al boot = some (wall, bound)) :
    wall.toInt = boot.toNat + o.offsetUs.toInt ∧ bound = o.boundUs := by
  unfold toWallUs at h
  rw [ho] at h
  simp only [Option.bind_eq_bind, Option.bind_some] at h
  split at h
  · rename_i hfits
    cases h
    exact ⟨toInt_ofInt64 hfits, rfl⟩
  · cases h

/-- **Every anchor is covered.** With a negative drift the bound would be smaller than the spread,
and the anchor that is furthest away would lie outside. -/
theorem abs_toWall_sub_le (hdrift : NonnegDrift drift) {defaultBasis : ClockBasis}
    {o : OffsetEstimate} (h : sortedAnchors obs = first :: rest)
    (ho : (resultAt drift obs first rest defaultBasis).offset = some o) {p : Anchor}
    (hp : p ∈ recordedAnchors obs) :
    |p.1 + o.offsetUs.toInt - p.2| ≤ o.boundUs.toInt := by
  obtain ⟨hmedian, hbound, -⟩ := resultAt_offset_eq_some ho
  have hmem : p.2 - p.1 ∈ offsetsOf (first :: rest) :=
    List.mem_map.mpr ⟨p, h ▸ mem_sorted_of_mem_recorded hp, rfl⟩
  calc |p.1 + o.offsetUs.toInt - p.2|
      = |(p.2 - p.1) - medianOf (offsetsOf (first :: rest))| := by
        rw [hmedian, ← abs_neg]
        congr 1
        omega
    _ ≤ spreadOf (offsetsOf (first :: rest)) := abs_sub_median_le hmem
    _ ≤ boundOf drift obs first rest := spreadOf_le_boundOf hdrift h
    _ ≤ o.boundUs.toInt := hbound

/-- In the order of the device clock, and of the wall clock where that is equal.  Strict, so no
anchor is counted twice. -/
def AnchorLt (p q : Anchor) : Prop := p.1 < q.1 ∨ p.1 = q.1 ∧ p.2 < q.2

theorem sortedAnchors_pairwise (obs : List Observation) :
    (sortedAnchors obs).Pairwise AnchorLt := by
  refine (pairwise_sortDedup _).imp ?_
  rintro p q ⟨hle, hne⟩
  have hdiff : ¬ (p.1 = q.1 ∧ p.2 = q.2) := fun h => hne (Prod.ext h.1 h.2)
  unfold anchorLe at hle
  unfold AnchorLt
  omega

end Sound

/-- **An alignment is sound**, whatever the term that drift adds, as long as it is not negative:
it does not depend on the order of the observations; where it has an offset, the offset takes
every anchor to its wall time up to the bound, and the flag says that two anchors in a row are a
second or more apart; and nothing on the way to it wraps, so that what is not representable is no
offset.

`hdrift` is the only hypothesis, and it is one about the PARAMETER: the conjunct about
`driftBound` says that the term of the source satisfies it, and that with this term the checked
estimate is `estimateAlignment` itself.  An alignment without anchors has no offset; one with
anchors has none exactly when its median or its bound is beyond 64 bits.  The observations are any
list, and the cover is stated about the conversion that the rest of the program uses, `toWallUs`.
-/
theorem alignment_sound (drift : ℤ → ℤ → ℤ) (hdrift : NonnegDrift drift)
    (obs : List Observation) (defaultBasis : ClockBasis) :
    ((∀ p, p ∈ sortedAnchors obs ↔ p ∈ recordedAnchors obs) ∧
      (sortedAnchors obs).Pairwise AnchorLt) ∧
    (∀ obs', obs.Perm obs' →
      checkedAlignment drift obs' defaultBasis = checkedAlignment drift obs defaultBasis) ∧
    (∀ al o, checkedAlignment drift obs defaultBasis = .ok al → al.offset = some o →
      (∀ ob ∈ obs, ∀ boot unix, ob.tBootUs = some boot → ob.anchorUnixUs = some unix →
        ∀ wall bound, toWallUs al boot = some (wall, bound) →
          bound = o.boundUs ∧ |wall.toInt - unix.toInt| ≤ bound.toInt) ∧
      (o.discontinuity = true ↔ ∃ before p q after,
        sortedAnchors obs = before ++ p :: q :: after ∧
          1000000 ≤ |(q.2 - q.1) - (p.2 - p.1)|)) ∧
    ((sortedAnchors obs = [] → ∃ al, checkedAlignment drift obs defaultBasis = .ok al ∧
        al.offset = none) ∧
      ∀ first rest, sortedAnchors obs = first :: rest → Fits128 (boundOf drift obs first rest) →
        ∃ al, checkedAlignment drift obs defaultBasis = .ok al ∧
          (al.offset = none ↔ ¬ (InI64 (medianOf (offsetsOf (first :: rest))) ∧
            InI64 (boundOf drift obs first rest)))) ∧
    (NonnegDrift driftBound ∧
      (∀ first rest, sortedAnchors obs = first :: rest →
        Fits128 (boundOf driftBound obs first rest)) ∧
      checkedAlignment driftBound obs defaultBasis = .ok (estimateAlignment obs defaultBasis)) ∧
    ∀ al boot, checkedToWallUs al boot = .ok (toWallUs al boot) := by
  refine ⟨⟨?_, sortedAnchors_pairwise obs⟩, ?_, ?_, ⟨?_, ?_⟩,
    ⟨nonnegDrift_driftBound, ?_, ?_⟩, checkedToWallUs_eq⟩
  · exact fun p => ⟨mem_recorded_of_mem_sorted, mem_sorted_of_mem_recorded⟩
  · exact fun obs' h => checkedAlignment_perm drift defaultBasis h
  · intro al o hal ho
    obtain ⟨first, rest, h, rfl⟩ := exists_anchors hal ho
    refine ⟨?_, ?_⟩
    · intro ob hob boot unix hboot hunix wall bound hwall
      obtain ⟨hsum, rfl⟩ := toWallUs_eq_some ho hwall
      have hanchor : ((boot.toNat : ℤ), unix.toInt) ∈ recordedAnchors obs :=
        List.mem_filterMap.mpr ⟨ob, hob, by unfold anchorOf; rw [hboot, hunix]⟩
      have hcovered := abs_toWall_sub_le hdrift h ho hanchor
      exact ⟨rfl, by rw [hsum]; exact hcovered⟩
    · obtain ⟨-, -, hflag⟩ := resultAt_offset_eq_some ho
      rw [hflag, discontinuous_iff, h]
      simp only [discontinuityUs]
  · intro h
    refine ⟨_, by unfold checkedAlignment; rw [h]; rfl, rfl⟩
  · intro first rest h hfits
    refine ⟨resultAt drift obs first rest defaultBasis, ?_, resultAt_offset_eq_none_iff⟩
    unfold checkedAlignment
    rw [h]
    dsimp only
    rw [checkedAnchored_eq h, if_pos hfits]
  · exact fun first rest h => fits128_boundOf h
  · exact checkedAlignment_driftBound obs defaultBasis

/-- Two offsets 5 ms apart: the median takes the first anchor to within 5 ms. -/
theorem driftingAnchors_covered :
    ∃ o, (estimateAlignment driftingAnchors .bootRelative).offset = some o ∧
      o.boundUs = 5000 ∧ o.discontinuity = false ∧
      ∀ wall bound, toWallUs (estimateAlignment driftingAnchors .bootRelative) 1000 =
        some (wall, bound) → |wall.toInt - 1700000000000000| ≤ 5000 := by
  have hsound := alignment_sound driftBound nonnegDrift_driftBound driftingAnchors .bootRelative
  have hoffset : (estimateAlignment driftingAnchors .bootRelative).offset =
      some ⟨1700000000004000, 5000, .inLogAnchor, 2, false⟩ := by decide +kernel
  refine ⟨_, hoffset, rfl, rfl, fun wall bound hwall => ?_⟩
  obtain ⟨rfl, hle⟩ := (hsound.2.2.1 _ _ hsound.2.2.2.2.1.2.2 hoffset).1
    (anchoredAt 1000 1700000000000000) (List.mem_cons_self ..) 1000 1700000000000000 rfl rfl
    wall bound hwall
  exact hle

end Musubi.Reference
