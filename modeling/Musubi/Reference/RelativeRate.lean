/-
# The interval of a relative clock rate

`estimate_relative_rate` divides two intervals: the change of the offset by the span of the device
clock, both known up to twice the uncertainty of an anchor.  What it reports is the tightest pair
of integers around every quotient; the class is a statement about all of them; and nothing on the
way overflows, because readings of 64 bits leave room in 128.

## The argument

The quotient of two intervals lies between the quotients of their ends, as long as the divisor is
positive on all of its interval.  That is the field `wide` of `IsBaseline`, which holds because
the code compares the span with the uncertainty before it divides.  `rates_enclosed` is the
enclosure, over the rationals; `rates_tightest` says that the ends are taken up to rounding,
because every corner is itself a rate.  The bounds `span_le`, `twoU_le` and `abs_dOffset_le` are
what keeps each product within 128 bits, and `rateCorners_eq` turns the checked arithmetic into
plain integers once for all four corners.

`sortedAnchors_shifted` and what follows it say that a shift of the wall clock moves no rate: it
moves every anchor by the same amount, and only differences are divided.  The report of a whole
log is `estimateRelativeRate_sound`.
-/
import Musubi.Lib.Quotients
import Musubi.Lib.SortedSets
import Musubi.Reference.TimeAlign
import Mathlib.Data.List.Pairwise

namespace Musubi.Reference

open Lib Lib.Checked

/-! ## 1. Anchors -/

variable {obs : List Observation} {al : TimeAlignment} {cfg : ClockRateConfig}

/-- Readings of 64 bits: the device clock without a sign, the wall clock with one. -/
structure InRange (p : Anchor) : Prop where
  boot_nonneg : 0 ≤ p.1
  boot_lt : p.1 < 2 ^ 64
  wall_ge : -2 ^ 63 ≤ p.2
  wall_lt : p.2 < 2 ^ 63

theorem inRange_of_mem {p : Anchor} (h : p ∈ recordedAnchors obs) : InRange p := by
  obtain ⟨o, _, ho⟩ := List.mem_filterMap.mp h
  unfold anchorOf at ho
  split at ho
  · next boot wall _ _ =>
    rw [Option.some.injEq] at ho
    subst ho
    have hboot := boot.toNat_lt
    have hwall := inI64_toInt wall
    exact ⟨by simp, by simp only; omega, hwall.1, hwall.2⟩
  · cases ho

instance : Std.Total anchorLe where
  total p q := by
    unfold anchorLe
    omega

instance : IsTrans Anchor anchorLe where
  trans p q r hpq hqr := by
    unfold anchorLe at *
    omega

instance : Std.Antisymm anchorLe where
  antisymm p q hpq hqp := by
    unfold anchorLe at *
    exact Prod.ext (by omega) (by omega)

theorem sorted_sortedAnchors (obs : List Observation) : (sortedAnchors obs).Pairwise anchorLe :=
  (pairwise_sortDedup _).imp And.left

theorem mem_recorded_of_mem_sorted {p : Anchor} (h : p ∈ sortedAnchors obs) :
    p ∈ recordedAnchors obs :=
  (mem_sortDedup _).mp h

theorem mem_sorted_of_mem_recorded {p : Anchor} (h : p ∈ recordedAnchors obs) :
    p ∈ sortedAnchors obs :=
  (mem_sortDedup _).mpr h

theorem anchorLe_refl (p : Anchor) : anchorLe p p := Or.inr ⟨rfl, le_rfl⟩

theorem anchorLe_of_head {p first : Anchor} (hfirst : (sortedAnchors obs).head? = some first)
    (h : p ∈ recordedAnchors obs) : anchorLe first p := by
  have hp := mem_sorted_of_mem_recorded h
  have hsorted := sorted_sortedAnchors obs
  obtain ⟨rest, hrest⟩ := List.head?_eq_some_iff.mp hfirst
  rw [hrest] at hp hsorted
  rcases List.mem_cons.mp hp with rfl | hp
  · exact anchorLe_refl p
  · exact List.rel_of_pairwise_cons hsorted hp

theorem anchorLe_of_getLast {p last : Anchor}
    (hlast : (sortedAnchors obs).getLast? = some last) (h : p ∈ recordedAnchors obs) :
    anchorLe p last := by
  have hp := mem_sorted_of_mem_recorded h
  have hsorted := sorted_sortedAnchors obs
  obtain ⟨before, hbefore⟩ := List.getLast?_eq_some_iff.mp hlast
  rw [hbefore] at hp hsorted
  rcases List.mem_append.mp hp with hp | hp
  · exact (List.pairwise_append.mp hsorted).2.2 p hp last (List.mem_singleton_self _)
  · rw [List.mem_singleton.mp hp]
    exact anchorLe_refl last

/-! ## 2. The baseline -/

/-- What `RateBaseline` stands for: `first` and `last` are the extreme anchors, the span is wide
enough for the uncertainty of both ends, and the rest are their differences. -/
structure IsBaseline (obs : List Observation) (cfg : ClockRateConfig) (first last : Anchor)
    (b : RateBaseline) : Prop where
  first_mem : first ∈ recordedAnchors obs
  last_mem : last ∈ recordedAnchors obs
  first_le : ∀ p ∈ recordedAnchors obs, anchorLe first p
  le_last : ∀ p ∈ recordedAnchors obs, anchorLe p last
  dOffset_eq : b.dOffset = (last.2 - last.1) - (first.2 - first.1)
  span_eq : b.span = last.1 - first.1
  twoU_eq : b.twoU = 2 * cfg.anchorUncertaintyUs.toInt
  wide : 0 < b.span - b.twoU

theorem offsetChange_eq {ε : Type} {first last : Anchor} (hfirst : InRange first)
    (hlast : InRange last) : (offsetChange first last : Checked ε ℤ) =
      .ok ((last.2 - last.1) - (first.2 - first.1)) := by
  obtain ⟨_, _, _, _⟩ := hfirst
  obtain ⟨_, _, _, _⟩ := hlast
  unfold offsetChange
  rw [sub128, fit128_eq (by constructor <;> omega), ok_bind, sub128,
    fit128_eq (by constructor <;> omega), ok_bind, sub128,
    fit128_eq (by constructor <;> omega)]

theorem rateBaseline_safe (obs : List Observation) (al : TimeAlignment) (cfg : ClockRateConfig) :
    Safe (rateBaseline obs al cfg) fun b => ∃ first last, IsBaseline obs cfg first last b := by
  unfold rateBaseline
  refine Safe.guard fun _ => ?_
  split
  · exact safe_fail _
  refine Safe.guard fun _ => Safe.guard fun _ => Safe.guard fun _ => ?_
  split
  swap
  · exact safe_fail _
  · next first last hfirst hlast =>
    have hfirst_mem := mem_recorded_of_mem_sorted (List.mem_of_mem_head? hfirst)
    have hlast_mem := mem_recorded_of_mem_sorted (List.mem_of_getLast? hlast)
    have hfirst_in := inRange_of_mem hfirst_mem
    have hlast_in := inRange_of_mem hlast_mem
    have hb0 := hfirst_in.boot_nonneg
    have hb0' := hfirst_in.boot_lt
    have hbn := hlast_in.boot_nonneg
    have hbn' := hlast_in.boot_lt
    have hu := inI64_toInt cfg.anchorUncertaintyUs
    unfold InI64 at hu
    refine Safe.guard fun _ => ?_
    rw [sub128, fit128_eq (by constructor <;> omega), ok_bind]
    refine Safe.guard fun _ => ?_
    rw [mul128, fit128_eq (by constructor <;> omega), ok_bind, sub128,
      fit128_eq (by constructor <;> omega), ok_bind]
    refine Safe.guard fun hwide => ?_
    rw [offsetChange_eq hfirst_in hlast_in, ok_bind]
    exact safe_pure ⟨_, _, hfirst_mem, hlast_mem, fun p hp => anchorLe_of_head hfirst hp,
      fun p hp => anchorLe_of_getLast hlast hp, rfl, rfl, rfl, not_le.mp hwide⟩

namespace IsBaseline

variable {first last : Anchor} {b : RateBaseline}

theorem twoU_nonneg (h : IsBaseline obs cfg first last b)
    (hu : 0 ≤ cfg.anchorUncertaintyUs.toInt) : 0 ≤ b.twoU := by
  rw [h.twoU_eq]
  omega

theorem twoU_le (h : IsBaseline obs cfg first last b) : b.twoU ≤ 2 ^ 64 := by
  have hu := (inI64_toInt cfg.anchorUncertaintyUs).2
  rw [h.twoU_eq]
  omega

theorem span_le (h : IsBaseline obs cfg first last b) : b.span ≤ 2 ^ 64 := by
  have hfirst := (inRange_of_mem h.first_mem).boot_nonneg
  have hlast := (inRange_of_mem h.last_mem).boot_lt
  rw [h.span_eq]
  omega

theorem abs_dOffset_le (h : IsBaseline obs cfg first last b) : |b.dOffset| ≤ 2 ^ 66 := by
  obtain ⟨_, _, _, _⟩ := inRange_of_mem h.first_mem
  obtain ⟨_, _, _, _⟩ := inRange_of_mem h.last_mem
  rw [h.dOffset_eq, abs_le]
  constructor <;> omega

end IsBaseline

/-! ## 3. The corners -/

/-- A corner whose numerator is small and whose divisor is positive does not overflow. -/
theorem rateCorner_eq {ε : Type} {n d : ℤ} (hn : |n| ≤ 2 ^ 67) (hd : 0 < d) (acc : ℤ × ℤ) :
    (rateCorner acc n d : Checked ε (ℤ × ℤ)) =
      .ok (min acc.1 (floorDiv (n * 1000000) d), max acc.2 (ceilDiv (n * 1000000) d)) := by
  have hscaled : |n * 1000000| ≤ 2 ^ 87 := by
    rw [abs_mul, abs_of_pos (by decide : (0 : ℤ) < 1000000)]
    omega
  have hnegated : |-(n * 1000000)| ≤ 2 ^ 87 := by rwa [abs_neg]
  have habove : |-(-(n * 1000000) / d)| ≤ 2 ^ 87 := by
    rw [abs_neg]
    exact (abs_ediv_le hd).trans hnegated
  unfold rateCorner
  rw [mul128, fit128_eq (fits128_of_abs_le hscaled (by decide)), ok_bind,
    divEuclid128_eq hd hscaled (by decide), ok_bind, neg128,
    fit128_eq (fits128_of_abs_le hnegated (by decide)), ok_bind,
    divEuclid128_eq hd hnegated (by decide), ok_bind, neg128,
    fit128_eq (fits128_of_abs_le habove (by decide)), ok_bind]
  rfl

/-- The ends of the interval in ppm. -/
def rateFloor (b : RateBaseline) : ℤ :=
  quotientFloor ((b.dOffset - b.twoU) * 1000000) ((b.dOffset + b.twoU) * 1000000)
    (b.span - b.twoU) (b.span + b.twoU)

def rateCeil (b : RateBaseline) : ℤ :=
  quotientCeil ((b.dOffset - b.twoU) * 1000000) ((b.dOffset + b.twoU) * 1000000)
    (b.span - b.twoU) (b.span + b.twoU)

theorem abs_floorDiv_le {n d : ℤ} (hn : |n| ≤ 2 ^ 67) (hd : 0 < d) :
    |floorDiv (n * 1000000) d| ≤ 2 ^ 87 := by
  refine (abs_ediv_le hd).trans ?_
  rw [abs_mul, abs_of_pos (by decide : (0 : ℤ) < 1000000)]
  omega

theorem abs_ceilDiv_le {n d : ℤ} (hn : |n| ≤ 2 ^ 67) (hd : 0 < d) :
    |ceilDiv (n * 1000000) d| ≤ 2 ^ 87 := by
  have h := abs_floorDiv_le (n := -n) (by rwa [abs_neg]) hd
  rw [neg_mul] at h
  rwa [ceilDiv, abs_neg, ← floorDiv]

/-- **The four corners give the ends, and no operation on the way overflows.** -/
theorem rateCorners_eq {ε : Type} {b : RateBaseline} {first last : Anchor}
    (h : IsBaseline obs cfg first last b) (hu : 0 ≤ cfg.anchorUncertaintyUs.toInt) :
    (rateCorners b : Checked ε (ℤ × ℤ)) = .ok (rateFloor b, rateCeil b) := by
  have hpos := h.twoU_nonneg hu
  have hle := h.twoU_le
  have hspan := h.span_le
  have hwide := h.wide
  have hoffset := abs_le.mp h.abs_dOffset_le
  have hdLow : 0 < b.span - b.twoU := hwide
  have hdHigh : 0 < b.span + b.twoU := by omega
  have hnLow : |b.dOffset - b.twoU| ≤ 2 ^ 67 := by
    rw [abs_le]
    constructor <;> omega
  have hnHigh : |b.dOffset + b.twoU| ≤ 2 ^ 67 := by
    rw [abs_le]
    constructor <;> omega
  have hfloor := (abs_le.mp (abs_floorDiv_le hnLow hdLow)).2
  have hceil := (abs_le.mp (abs_ceilDiv_le hnLow hdLow)).1
  unfold rateCorners
  rw [sub128, fit128_eq (fits128_of_abs_le hnLow (by decide)), ok_bind, add128,
    fit128_eq (fits128_of_abs_le hnHigh (by decide)), ok_bind, sub128,
    fit128_eq (by constructor <;> omega), ok_bind, add128,
    fit128_eq (by constructor <;> omega), ok_bind, rateCorner_eq hnLow hdLow, ok_bind,
    rateCorner_eq hnLow hdHigh, ok_bind, rateCorner_eq hnHigh hdLow, ok_bind,
    rateCorner_eq hnHigh hdHigh, rateFloor, rateCeil, quotientFloor, quotientCeil]
  congr 2
  · omega
  · omega

/-! ## 4. The rates that the anchors allow -/

/-- The quotients, in ppm, of an offset change and a span within the uncertainty of those
observed.  The two vary independently, since either end of the baseline has an error of its own.
-/
def Rates (b : RateBaseline) : Set ℚ :=
  {r | ∃ n d : ℚ, |n - b.dOffset| ≤ b.twoU ∧ |d - b.span| ≤ b.twoU ∧ r = 1000000 * n / d}

/-- What a reported interval and its class say about the rates: it encloses them all, no smaller
pair of integers does, and a class is about each of them. -/
structure RateSound (b : RateBaseline) (t low high : ℤ) (cls : ClockRateClass) : Prop where
  encloses : ∀ r ∈ Rates b, (low : ℚ) ≤ r ∧ r ≤ high
  tightest : ∀ lo hi : ℤ, (∀ r ∈ Rates b, (lo : ℚ) ≤ r ∧ r ≤ hi) → lo ≤ low ∧ high ≤ hi
  within : cls = .withinDeclaredLimit → ∀ r ∈ Rates b, |r| ≤ t
  outside : cls = .outsideDeclaredLimit → ∀ r ∈ Rates b, t < |r|

section Rates

variable {b : RateBaseline} {first last : Anchor}

theorem rates_enclosed (h : IsBaseline obs cfg first last b) {r : ℚ} (hr : r ∈ Rates b) :
    (rateFloor b : ℚ) ≤ r ∧ r ≤ rateCeil b := by
  obtain ⟨n, d, hn, hd, rfl⟩ := hr
  have hn := abs_le.mp hn
  have hd := abs_le.mp hd
  have hlow : (((b.dOffset - b.twoU) * 1000000 : ℤ) : ℚ) ≤ 1000000 * n := by
    push_cast
    linarith [hn.1]
  have hhigh : 1000000 * n ≤ (((b.dOffset + b.twoU) * 1000000 : ℤ) : ℚ) := by
    push_cast
    linarith [hn.2]
  have hdLow : ((b.span - b.twoU : ℤ) : ℚ) ≤ d := by
    push_cast
    linarith [hd.1]
  have hdHigh : d ≤ ((b.span + b.twoU : ℤ) : ℚ) := by
    push_cast
    linarith [hd.2]
  constructor
  · exact quotientFloor_le_div h.wide hlow hdLow hdHigh
  · exact div_le_quotientCeil h.wide hhigh hdLow hdHigh

/-- A quotient in the box is a rate: any change of the offset and any span within their
uncertainties.  The corners are such quotients, so the ends that are reported are attained up to
rounding. -/
theorem div_mem_rates {x y : ℚ} (hx : (((b.dOffset - b.twoU) * 1000000 : ℤ) : ℚ) ≤ x)
    (hx' : x ≤ (((b.dOffset + b.twoU) * 1000000 : ℤ) : ℚ))
    (hy : ((b.span - b.twoU : ℤ) : ℚ) ≤ y) (hy' : y ≤ ((b.span + b.twoU : ℤ) : ℚ)) :
    x / y ∈ Rates b := by
  push_cast at hx hx' hy hy'
  refine ⟨x / 1000000, y, ?_, ?_, ?_⟩
  · rw [abs_le]
    constructor <;> linarith
  · rw [abs_le]
    constructor <;> linarith
  · rw [mul_div_cancel₀ x (by norm_num)]

theorem rates_tightest (h : IsBaseline obs cfg first last b)
    (hu : 0 ≤ cfg.anchorUncertaintyUs.toInt) {lo hi : ℤ}
    (hrates : ∀ r ∈ Rates b, (lo : ℚ) ≤ r ∧ r ≤ hi) : lo ≤ rateFloor b ∧ rateCeil b ≤ hi := by
  have hpos := h.twoU_nonneg hu
  constructor
  · refine le_quotientFloor (K := ℚ) h.wide (by omega) (by omega) fun x y hx hx' hy hy' => ?_
    exact (hrates _ (div_mem_rates hx hx' hy hy')).1
  · refine quotientCeil_le (K := ℚ) h.wide (by omega) (by omega) fun x y hx hx' hy hy' => ?_
    exact (hrates _ (div_mem_rates hx hx' hy hy')).2

theorem rateSound_rateClass (h : IsBaseline obs cfg first last b)
    (hu : 0 ≤ cfg.anchorUncertaintyUs.toInt) (t : ℤ) :
    RateSound b t (rateFloor b) (rateCeil b) (rateClass t (-t) (rateFloor b) (rateCeil b)) where
  encloses r hr := rates_enclosed h hr
  tightest lo hi hrates := rates_tightest h hu hrates
  within := by
    unfold rateClass
    split
    · next hwithin =>
      intro _ r hr
      have hlow : ((-t : ℤ) : ℚ) ≤ rateFloor b := Int.cast_le.mpr hwithin.1
      have hhigh : (rateCeil b : ℚ) ≤ t := Int.cast_le.mpr hwithin.2
      have hr := rates_enclosed h hr
      rw [Int.cast_neg] at hlow
      exact abs_le.mpr ⟨hlow.trans hr.1, hr.2.trans hhigh⟩
    · split <;> rintro ⟨⟩
  outside := by
    unfold rateClass
    split
    · rintro ⟨⟩
    split
    · next houtside =>
      intro _ r hr
      have hr := rates_enclosed h hr
      rw [lt_abs]
      rcases houtside with hlow | hhigh
      · have hlow : (t : ℚ) < rateFloor b := Int.cast_lt.mpr hlow
        exact Or.inl (hlow.trans_le hr.1)
      · have hhigh : (rateCeil b : ℚ) < ((-t : ℤ) : ℚ) := Int.cast_lt.mpr hhigh
        rw [Int.cast_neg] at hhigh
        exact Or.inr (by linarith [hr.2])
    · rintro ⟨⟩

end Rates

/-! ## 5. Moving the wall clock -/

/-- `o'` is `o` with `c` added to its wall time, if it has one; the device clock is the same. -/
def WallShifted (c : ℤ) (o o' : Observation) : Prop :=
  o'.tBootUs = o.tBootUs ∧
    o'.anchorUnixUs.map Int64.toInt = o.anchorUnixUs.map fun wall => wall.toInt + c

def shiftWall (c : ℤ) (p : Anchor) : Anchor := (p.1, p.2 + c)

theorem anchorOf_shifted {c : ℤ} {o o' : Observation} (h : WallShifted c o o') :
    anchorOf o' = (anchorOf o).map (shiftWall c) := by
  obtain ⟨hboot, hwall⟩ := h
  unfold anchorOf
  rw [hboot]
  cases o.tBootUs with
  | none => rfl
  | some boot =>
    cases hw : o.anchorUnixUs with
    | none =>
      rw [hw, Option.map_none, Option.map_eq_none_iff] at hwall
      rw [hwall]
      rfl
    | some wall =>
      rw [hw, Option.map_some, Option.map_eq_some_iff] at hwall
      obtain ⟨wall', hw', heq⟩ := hwall
      rw [hw']
      simp only [heq, Option.map_some, shiftWall]

theorem recordedAnchors_shifted {c : ℤ} {obs' : List Observation}
    (h : List.Forall₂ (WallShifted c) obs obs') :
    recordedAnchors obs' = (recordedAnchors obs).map (shiftWall c) := by
  unfold recordedAnchors
  induction h with
  | nil => rfl
  | cons ho _ ih =>
    rw [List.filterMap_cons, List.filterMap_cons, anchorOf_shifted ho]
    cases anchorOf _ with
    | none => exact ih
    | some p => exact congrArg (shiftWall c p :: ·) ih

theorem shiftWall_injective (c : ℤ) : Function.Injective (shiftWall c) := by
  rintro ⟨b, a⟩ ⟨b', a'⟩ h
  simp only [shiftWall, Prod.mk.injEq] at h ⊢
  omega

theorem sortedAnchors_shifted {c : ℤ} {obs' : List Observation}
    (h : List.Forall₂ (WallShifted c) obs obs') :
    sortedAnchors obs' = (sortedAnchors obs).map (shiftWall c) := by
  have hle : ∀ p ∈ recordedAnchors obs, ∀ q ∈ recordedAnchors obs,
      anchorLe p q ↔ anchorLe (shiftWall c p) (shiftWall c q) := by
    intro p _ q _
    unfold anchorLe shiftWall
    omega
  unfold sortedAnchors
  rw [recordedAnchors_shifted h, ← List.map_insertionSort anchorLe anchorLe (shiftWall c) _ hle,
    List.map_destutter_ne _ (shiftWall_injective c)]

theorem runsBackwards_shifted (c : ℤ) (anchors : List Anchor) :
    runsBackwards (anchors.map (shiftWall c)) = runsBackwards anchors := by
  induction anchors with
  | nil => rfl
  | cons p rest ih =>
    cases rest with
    | nil => rfl
    | cons q rest =>
      rw [List.map_cons, List.map_cons, runsBackwards, runsBackwards, ← List.map_cons, ih]
      rfl

/-- All that is read of an alignment. -/
def SameClock (al al' : TimeAlignment) : Prop :=
  al'.basis = al.basis ∧
    al'.offset.map (fun o => (o.source, o.discontinuity)) =
      al.offset.map fun o => (o.source, o.discontinuity)

theorem rateBaseline_shifted {c : ℤ} {obs' : List Observation} {al' : TimeAlignment}
    (h : List.Forall₂ (WallShifted c) obs obs') (hal : SameClock al al') :
    rateBaseline obs' al' cfg = rateBaseline obs al cfg := by
  obtain ⟨hbasis, hoffset⟩ := hal
  have hsorted := sortedAnchors_shifted h
  have hback : runsBackwards (recordedAnchors obs') = runsBackwards (recordedAnchors obs) := by
    rw [recordedAnchors_shifted h, runsBackwards_shifted]
  have hlength : (sortedAnchors obs').length = (sortedAnchors obs).length := by
    rw [hsorted, List.length_map]
  have hhead : (sortedAnchors obs').head? = (sortedAnchors obs).head?.map (shiftWall c) := by
    rw [hsorted, List.head?_map]
  have hlast' : (sortedAnchors obs').getLast? =
      (sortedAnchors obs).getLast?.map (shiftWall c) := by
    rw [hsorted, List.getLast?_map]
  unfold rateBaseline
  rw [hbasis, hback, hlength]
  cases ho : al.offset with
  | none =>
    rw [ho, Option.map_none, Option.map_eq_none_iff] at hoffset
    rw [hoffset]
  | some o =>
    rw [ho, Option.map_some, Option.map_eq_some_iff] at hoffset
    obtain ⟨o', ho', heq⟩ := hoffset
    rw [Prod.mk.injEq] at heq
    rw [ho']
    simp only [heq.1, heq.2]
    cases hfirst : (sortedAnchors obs).head? with
    | none =>
      rw [hfirst] at hhead
      rw [hhead, Option.map_none]
    | some first =>
      cases hlast : (sortedAnchors obs).getLast? with
      | none =>
        rw [hfirst] at hhead
        rw [hlast] at hlast'
        rw [hhead, hlast', Option.map_none, Option.map_some]
      | some last =>
        rw [hfirst] at hhead
        rw [hlast] at hlast'
        have hfirst_in := inRange_of_mem (mem_recorded_of_mem_sorted (List.mem_of_mem_head? hfirst))
        have hlast_in := inRange_of_mem (mem_recorded_of_mem_sorted (List.mem_of_getLast? hlast))
        have hfirst_in' := inRange_of_mem (mem_recorded_of_mem_sorted (List.mem_of_mem_head? hhead))
        have hlast_in' := inRange_of_mem (mem_recorded_of_mem_sorted (List.mem_of_getLast? hlast'))
        have hchange : (offsetChange (shiftWall c first) (shiftWall c last) :
            Checked ClockRateGap ℤ) = offsetChange first last := by
          rw [offsetChange_eq hfirst_in' hlast_in', offsetChange_eq hfirst_in hlast_in]
          simp only [shiftWall]
          congr 1
          omega
        rw [hhead, hlast', Option.map_some, Option.map_some]
        simp only [hchange]
        rfl

/-! ## 6. The estimate -/

theorem rateReport_of_baseline {b : RateBaseline} {first last : Anchor}
    (hb : rateBaseline obs al cfg = .ok b) (h : IsBaseline obs cfg first last b)
    (hu : 0 ≤ cfg.anchorUncertaintyUs.toInt) :
    rateReport obs al cfg =
      if InI64 b.span ∧ InI64 (rateFloor b) ∧ InI64 (rateCeil b) then
        .ok {
          outcome := .observed (.ofInt (rateFloor b)) (.ofInt (rateCeil b))
            (rateClass cfg.maxAbsRatePpm.toInt (-cfg.maxAbsRatePpm.toInt) (rateFloor b)
              (rateCeil b))
          anchors := .ofNat b.anchors
          spanUs := .ofInt b.span
          config := cfg }
      else fail .outOfRepresentableRange := by
  have ht := inI64_toInt cfg.maxAbsRatePpm
  unfold InI64 at ht
  unfold rateReport
  rw [hb, ok_bind, rateCorners_eq h hu, ok_bind]
  simp only
  rw [neg128, fit128_eq (by constructor <;> omega), ok_bind]
  rfl

/-- **The interval of the relative clock rate.**  The estimate never overflows; the two
divisors of the corners are positive; an observed interval is the tightest pair of integers
around every rate the anchors allow, and its class speaks of all of them; and moving the wall
clock of every anchor by a constant changes nothing. -/
theorem estimateRelativeRate_sound (obs : List Observation) (al : TimeAlignment)
    (cfg : ClockRateConfig) (hu : 0 ≤ cfg.anchorUncertaintyUs.toInt) :
    (∃ report, estimateRelativeRate obs al cfg = .ok report) ∧
    (∀ b, rateBaseline obs al cfg = .ok b →
      0 < b.span - b.twoU ∧ 0 < b.span + b.twoU) ∧
    (∀ report low high cls, estimateRelativeRate obs al cfg = .ok report →
      report.outcome = .observed low high cls →
      ∃ b first last, IsBaseline obs cfg first last b ∧ report.spanUs.toInt = b.span ∧
        RateSound b cfg.maxAbsRatePpm.toInt low.toInt high.toInt cls) ∧
    ∀ (c : ℤ) (obs' : List Observation) (al' : TimeAlignment),
      List.Forall₂ (WallShifted c) obs obs' → SameClock al al' →
      estimateRelativeRate obs' al' cfg = estimateRelativeRate obs al cfg := by
  have hbase := (rateBaseline_safe obs al cfg).cases
  refine ⟨?_, ?_, ?_, ?_⟩
  · rcases hbase with ⟨gap, hgap⟩ | ⟨b, hb, first, last, h⟩
    · exact ⟨_, by rw [estimateRelativeRate, rateReport, hgap]; rfl⟩
    · rw [estimateRelativeRate, rateReport_of_baseline hb h hu]
      split
      · exact ⟨_, rfl⟩
      · exact ⟨_, rfl⟩
  · intro b hb
    rcases hbase with ⟨gap, hgap⟩ | ⟨b', hb', first, last, h⟩
    · rw [hgap] at hb
      cases hb
    · rw [hb'] at hb
      cases hb
      have hpos := h.twoU_nonneg hu
      have hwide := h.wide
      exact ⟨hwide, by omega⟩
  · intro report low high cls hreport houtcome
    rcases hbase with ⟨gap, hgap⟩ | ⟨b, hb, first, last, h⟩
    · rw [estimateRelativeRate, rateReport, hgap] at hreport
      cases hreport
      cases houtcome
    · rw [estimateRelativeRate, rateReport_of_baseline hb h hu] at hreport
      split at hreport
      · next hfits =>
        cases hreport
        cases houtcome
        refine ⟨b, first, last, h, toInt_ofInt64 hfits.1, ?_⟩
        rw [toInt_ofInt64 hfits.2.1, toInt_ofInt64 hfits.2.2]
        exact rateSound_rateClass h hu _
      · cases hreport
        cases houtcome
  · intro c obs' al' hobs hal
    rw [estimateRelativeRate, estimateRelativeRate, rateReport, rateReport,
      rateBaseline_shifted hobs hal]

/-! ## 7. Two anchors a hundred seconds apart -/

def anchoredAt (boot : UInt64) (wall : Int64) : Observation where
  tMs := 0
  clockBasis := .bootRelative
  timeConfidence := .ofRat (2 / 10)
  sourceRole := .fc
  channel := .gpsEkf
  fields := []
  stale := false
  digest := Sha256.hash []
  tBootUs := some boot
  anchorUnixUs := some wall
  wallMs := none

/-- The wall clock gains 5 ms in 100 s. -/
def driftingAnchors : List Observation :=
  [anchoredAt 1000 1700000000000000, anchoredAt 100001000 1700000100005000]

def lockedAlignment : TimeAlignment :=
  ⟨.gpsLocked, some ⟨1699999999999000, 1, .inLogAnchor, 2, false⟩⟩

def limitHundredPpm : ClockRateConfig := ⟨100, 1000000, 100⟩

/-- 50 ppm, give or take what an anchor is uncertain by. -/
theorem drifting_fifty_ppm : ∃ b first last,
    IsBaseline driftingAnchors limitHundredPpm first last b ∧
      RateSound b 100 47 53 .withinDeclaredLimit := by
  have hu : 0 ≤ limitHundredPpm.anchorUncertaintyUs.toInt := by decide
  have h := (estimateRelativeRate_sound driftingAnchors lockedAlignment limitHundredPpm hu).2.2.1
    ⟨.observed 47 53 .withinDeclaredLimit, 2, 100000000, limitHundredPpm⟩ 47 53
    .withinDeclaredLimit (by decide +kernel) rfl
  obtain ⟨b, first, last, hb, _, hsound⟩ := h
  exact ⟨b, first, last, hb, hsound⟩

end Musubi.Reference
