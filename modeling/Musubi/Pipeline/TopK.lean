/-
# More candidates, earlier causes

What `top_k_candidates` names grows with `k` at its end only, so a claim that names the kind of an
incident among `k` candidates names it among `k + 1`.  The loops of `cause_timing` and `evaluate`
are followed side by side for the two: the first such claim comes no later (`Follows`), and a hit
among one candidate is a hit among three (`Counted`).

The sorting of the candidates does not depend on `k`, and taking `k` of a list is taking a prefix;
all monotonicity comes from there.  A claim is looked for from the front, and with more candidates
the search can only stop earlier.

Times are differences that may wrap around.  The comparison of two times of incidents is therefore
made between the times of the CLAIMS, which are compared as they are, and for the differences it
is stated where they are exact.
-/
import Mathlib.Data.Prod.Lex
import Musubi.FloatRange
import Musubi.Lib.Saturating
import Musubi.Pipeline.Eval

namespace Musubi.Pipeline.Eval

open Lib Reference

/-! ## 1. The ranking -/

/-- The place of a candidate in the ranking. -/
def rankKey (c : CauseCandidate) : Lex (LogicConfidence × ℤ) :=
  toLex (c.logicConfidence, binary64.key (ratio c).bits.toNat)

/-! ## 2. Prefixes -/

/-- **Fewer candidates are the first of more.** -/
theorem topKCandidates_isPrefixOf (outcome : CauseOutcome) {k m : ℕ} (h : k ≤ m) :
    topKCandidates outcome k <+: topKCandidates outcome m :=
  (List.take_prefix_take_left h).map _

theorem names_of_initial {named named' : List (String × LogicConfidence × Bool)}
    {catalogKinds : CatalogKinds} {inc : Incident} (hfront : named <+: named')
    (h : names named catalogKinds inc = true) : names named' catalogKinds inc = true := by
  obtain ⟨c, hc, hkind⟩ := List.any_eq_true.mp h
  exact List.any_eq_true.mpr ⟨c, hfront.subset hc, hkind⟩

/-! ## 3. Times -/

/-- A time, if there is one, is followed by another that is no later.  Where there is none the
other may be anything. -/
def Follows (first first' : Option Int64) : Prop := ∀ t ∈ first, ∃ t' ∈ first', t'.toInt ≤ t.toInt

variable (claims : List ClaimRecord) (catalogKinds : CatalogKinds) (cfg : EvalConfig)

/-- What a claim that names the kind of the incident leaves: the earlier of its own time and the
one so far. -/
theorem follows_min {first first' : Option Int64} (h : Follows first first') (stamp : Int64) :
    Follows (some (first.elim stamp (min · stamp))) (some (first'.elim stamp (min · stamp))) := by
  intro t ht
  cases first with
  | none =>
    obtain rfl := Option.some.inj ht
    cases first' with
    | none => exact ⟨stamp, rfl, Int.le_refl _⟩
    | some f' =>
      refine ⟨min f' stamp, rfl, ?_⟩
      rw [toInt_min]
      exact min_le_right _ _
  | some f =>
    obtain ⟨f', hf', hle⟩ := h f rfl
    obtain rfl := Option.some.inj ht
    obtain rfl := hf'
    refine ⟨min f' stamp, rfl, ?_⟩
    change (min f' stamp).toInt ≤ (min f stamp).toInt
    rw [toInt_min, toInt_min]
    exact min_le_min_right _ hle

/-- A claim that names the kind of the incident for `m` candidates alone brings its time down. -/
theorem follows_later {first first' : Option Int64} (h : Follows first first') (stamp : Int64) :
    Follows first (some (first'.elim stamp (min · stamp))) := by
  intro t ht
  obtain ⟨f', hf', hle⟩ := h t ht
  obtain rfl := hf'
  refine ⟨min f' stamp, rfl, ?_⟩
  rw [toInt_min]
  exact (min_le_left _ _).trans hle

theorem follows_firstStep {k m : ℕ} (hkm : k ≤ m) (inc : Incident) (c : ClaimRecord)
    {first first' : Option Int64} (h : Follows first first') :
    Follows (firstStep k catalogKinds cfg inc first c)
      (firstStep m catalogKinds cfg inc first' c) := by
  unfold firstStep
  dsimp only
  split
  · exact h
  · by_cases hk : names (topKCandidates c.claim.outcome k) catalogKinds inc = true
    · rw [if_pos hk, if_pos (names_of_initial (topKCandidates_isPrefixOf _ hkm) hk)]
      exact follows_min h _
    · rw [if_neg hk]
      split
      · exact follows_later h _
      · exact h

/-- **With more candidates the first claim that names the kind of an incident comes no later.** It
may be another claim, and it may be there where without them there was none. -/
theorem follows_firstNamed {k m : ℕ} (hkm : k ≤ m) (inc : Incident) :
    Follows (firstNamed k claims catalogKinds cfg inc)
      (firstNamed m claims catalogKinds cfg inc) := by
  have hrun (l : List ClaimRecord) : ∀ {first first' : Option Int64}, Follows first first' →
      Follows (l.foldl (firstStep k catalogKinds cfg inc) first)
        (l.foldl (firstStep m catalogKinds cfg inc) first') := by
    induction l with
    | nil => exact fun h => h
    | cons c l ih => exact fun h => ih (follows_firstStep catalogKinds cfg hkm inc c h)
  exact hrun _ fun t ht => nomatch ht

/-- The time from when an incident can be detected to the first claim that names its kind. -/
def sampleOf (k : ℕ) (inc : Incident) : Option Int64 :=
  (firstNamed k claims catalogKinds cfg inc).map (· - inc.tDetectableMs)

/-- **Every incident is sampled or censored**: the loop keeps the samples of the incidents that
have one, and counts the others. -/
theorem causeTiming_eq (k : ℕ) (incidents : List Incident) :
    (causeTiming k incidents claims catalogKinds cfg).samplesMs =
        incidents.filterMap (sampleOf claims catalogKinds cfg k) ∧
      (causeTiming k incidents claims catalogKinds cfg).censored =
        incidents.countP fun inc => (firstNamed k claims catalogKinds cfg inc).isNone := by
  have hrun (l : List Incident) : ∀ t : Timed,
      (l.foldl (timingStep k claims catalogKinds cfg) t).samples =
          t.samples ++ l.filterMap (sampleOf claims catalogKinds cfg k) ∧
        (l.foldl (timingStep k claims catalogKinds cfg) t).censoredBounds.length =
          t.censoredBounds.length +
            l.countP fun inc => (firstNamed k claims catalogKinds cfg inc).isNone := by
    induction l with
    | nil => exact fun t => ⟨(List.append_nil _).symm, rfl⟩
    | cons inc l ih =>
      intro t
      obtain ⟨hsamples, hcensored⟩ := ih (timingStep k claims catalogKinds cfg t inc)
      rw [List.foldl_cons, hsamples, hcensored]
      cases hfirst : firstNamed k claims catalogKinds cfg inc with
      | none =>
        have hsample : sampleOf claims catalogKinds cfg k inc = none := by
          rw [sampleOf, hfirst]
          rfl
        simp only [timingStep, hfirst]
        rw [List.filterMap_cons_none hsample, List.countP_cons_of_pos (by rw [hfirst]; rfl),
          List.length_append, List.length_singleton]
        exact ⟨rfl, by omega⟩
      | some first =>
        have hsample :
            sampleOf claims catalogKinds cfg k inc = some (first - inc.tDetectableMs) := by
          rw [sampleOf, hfirst]
          rfl
        simp only [timingStep, hfirst]
        rw [List.filterMap_cons_some hsample,
          List.countP_cons_of_neg (by rw [hfirst]; exact Bool.false_ne_true), List.append_assoc]
        exact ⟨rfl, rfl⟩
  obtain ⟨hsamples, hcensored⟩ := hrun incidents ⟨[], [], 0⟩
  exact ⟨hsamples, hcensored.trans (Nat.zero_add _)⟩

/-- Each of them is one of the two. -/
theorem sampled_add_censored (k : ℕ) (incidents : List Incident) :
    (incidents.filterMap (sampleOf claims catalogKinds cfg k)).length +
      (incidents.countP fun inc => (firstNamed k claims catalogKinds cfg inc).isNone) =
      incidents.length := by
  induction incidents with
  | nil => rfl
  | cons inc incidents ih =>
    rw [List.countP_cons, List.length_cons, ← ih]
    cases hfirst : firstNamed k claims catalogKinds cfg inc with
    | none =>
      have hsample : sampleOf claims catalogKinds cfg k inc = none := by rw [sampleOf, hfirst]; rfl
      rw [List.filterMap_cons_none hsample]
      rfl
    | some first =>
      have hsample : sampleOf claims catalogKinds cfg k inc = some (first - inc.tDetectableMs) := by
        rw [sampleOf, hfirst]
        rfl
      rw [List.filterMap_cons_some hsample, List.length_cons]
      simp only [Option.isNone_some, Bool.false_eq_true, if_false]
      omega

/-! ## 4. Hits -/

/-- A hit is one among three, and that is one of a claim that names a candidate. -/
structure Counted (t : Tally) : Prop where
  hits_le : t.hits ≤ t.hits3
  hits3_le : t.hits3 ≤ t.total

/-- A step that leaves these counts alone keeps the relation between them, whatever else it does.
-/
theorem Counted.of_eq {t t' : Tally} (h : Counted t) (hhits : t'.hits = t.hits)
    (hhits3 : t'.hits3 = t.hits3) (htotal : t'.total = t.total) : Counted t' := by
  refine ⟨?_, ?_⟩
  · rw [hhits, hhits3]
    exact h.hits_le
  · rw [hhits3, htotal]
    exact h.hits3_le

theorem counted_tallyUnknown {t : Tally} (h : Counted t) (rel : List ClaimRecord) :
    Counted (tallyUnknown rel t) := by
  induction rel generalizing t with
  | nil => exact h
  | cons c rel ih =>
    refine ih ?_
    unfold tallyReason
    split
    · exact h.of_eq rfl rfl rfl
    · exact h

theorem counted_tallyIndistinguishable {t : Tally} (h : Counted t) (rel : List ClaimRecord) :
    Counted (tallyIndistinguishable t rel) := by
  unfold tallyIndistinguishable
  refine counted_tallyUnknown ?_ rel
  split
  · exact h.of_eq rfl rfl rfl
  · exact h.of_eq rfl rfl rfl

/-- The candidate that a claim names first is among the first three. -/
theorem names_of_topCandidate {outcome : CauseOutcome} {sig : String} {logic : LogicConfidence}
    {ambiguous : Bool} {inc : Incident}
    (htop : topCandidate outcome = some (sig, logic, ambiguous))
    (hkind : kindOf sig catalogKinds = some inc.kind) :
    names (topKCandidates outcome 3) catalogKinds inc = true := by
  have hone : names (topKCandidates outcome 1) catalogKinds inc = true :=
    List.any_eq_true.mpr ⟨_, List.mem_of_mem_head? htop, decide_eq_true hkind⟩
  exact names_of_initial (topKCandidates_isPrefixOf outcome (by omega)) hone

theorem counted_tallyTop {t : Tally} (h : Counted t) {inc : Incident} {c : ClaimRecord}
    {sig : String} {logic : LogicConfidence} {ambiguous : Bool}
    (htop : topCandidate c.claim.outcome = some (sig, logic, ambiguous)) :
    Counted (tallyTop catalogKinds inc t c sig logic ambiguous) := by
  have hhits := h.hits_le
  have hhits3 := h.hits3_le
  unfold tallyTop
  by_cases hkind : kindOf sig catalogKinds = some inc.kind
  · have hthree := names_of_topCandidate catalogKinds htop hkind
    refine ⟨?_, ?_⟩
    · simp only [hkind, hthree, decide_true, if_true]
      omega
    · simp only [hthree, if_true]
      omega
  · refine ⟨?_, ?_⟩
    · simp only [hkind, decide_false, Bool.false_eq_true, if_false]
      split <;> omega
    · dsimp only
      split <;> omega

theorem topClaim_eq_some {rel : List ClaimRecord} {c : ClaimRecord}
    {top : String × LogicConfidence × Bool} (h : topClaim rel = some (c, top)) :
    topCandidate c.claim.outcome = some top := by
  obtain ⟨c', -, hc'⟩ := List.mem_filterMap.mp (List.mem_of_mem_head? h)
  obtain ⟨top', htop', heq⟩ := Option.map_eq_some_iff.mp hc'
  obtain ⟨rfl, rfl⟩ := Prod.mk.inj heq
  exact htop'

theorem counted_tallyStep {t : Tally} (h : Counted t) (inc : Incident) :
    Counted (tallyStep claims catalogKinds cfg t inc) := by
  unfold tallyStep
  dsimp only
  split
  · exact h
  split
  · exact counted_tallyIndistinguishable h _
  by_cases hcomplete : inc.channelComplete = true
  · have hclaimed : Counted { t with claimedS := t.claimedS + 1 } := h.of_eq rfl rfl rfl
    simp only [hcomplete, if_true]
    split
    · refine counted_tallyUnknown ?_ _
      exact h.of_eq rfl rfl rfl
    · next htop => exact counted_tallyTop catalogKinds hclaimed (topClaim_eq_some htop)
  · simp only [hcomplete, Bool.false_eq_true, if_false]
    split
    · refine counted_tallyUnknown ?_ _
      exact h.of_eq rfl rfl rfl
    · next htop => exact counted_tallyTop catalogKinds h (topClaim_eq_some htop)

theorem counted_evaluate (incidents : List Incident) :
    Counted (incidents.foldl (tallyStep claims catalogKinds cfg) .zero) := by
  have hrun (l : List Incident) : ∀ {t : Tally}, Counted t →
      Counted (l.foldl (tallyStep claims catalogKinds cfg) t) := by
    induction l with
    | nil => exact fun h => h
    | cons inc l ih => exact fun h => ih (counted_tallyStep claims catalogKinds cfg h inc)
  exact hrun incidents ⟨Nat.le_refl _, Nat.le_refl _⟩

/-! ## 5. The whole -/

/-- **More candidates name earlier causes.** What `top_k_candidates` gives for `k` begins what it
gives for `k + 1`; so `cause_timing` has a sample or a censored bound for every incident, an
incident that it censors for `k + 1` it censors for `k`, and the first claim that names the kind
of an incident comes no later for `k + 1`.  Among the claims that count, the hits are hits among
three candidates.  Incidents, claims and kinds are arbitrary; where a difference to the time of
detection is exact for both, the sample for `k + 1` is no larger. -/
theorem top_k_monotone :
    (∀ outcome k, topKCandidates outcome k <+: topKCandidates outcome (k + 1)) ∧
    ∀ (incidents : List Incident) (claims : List ClaimRecord) (catalogKinds : CatalogKinds)
      (cfg : EvalConfig),
      (∀ k,
        (causeTiming k incidents claims catalogKinds cfg).samplesMs =
          incidents.filterMap (sampleOf claims catalogKinds cfg k) ∧
        (causeTiming k incidents claims catalogKinds cfg).censored =
          incidents.countP (fun inc => (firstNamed k claims catalogKinds cfg inc).isNone) ∧
        (causeTiming k incidents claims catalogKinds cfg).samplesMs.length +
          (causeTiming k incidents claims catalogKinds cfg).censored = incidents.length) ∧
      (∀ k, ∀ inc ∈ incidents,
        (firstNamed (k + 1) claims catalogKinds cfg inc = none →
          firstNamed k claims catalogKinds cfg inc = none) ∧
        ∀ t, firstNamed k claims catalogKinds cfg inc = some t →
          ∃ t', firstNamed (k + 1) claims catalogKinds cfg inc = some t' ∧ t'.toInt ≤ t.toInt ∧
            ((t - inc.tDetectableMs).toInt = t.toInt - inc.tDetectableMs.toInt →
              (t' - inc.tDetectableMs).toInt = t'.toInt - inc.tDetectableMs.toInt →
              (t' - inc.tDetectableMs).toInt ≤ (t - inc.tDetectableMs).toInt)) ∧
      ∀ (noticed : List NoticedAbsence) (assetCount : ℕ) (durationMs : Int64),
        let m := evaluateWith incidents noticed claims catalogKinds assetCount durationMs cfg
        m.precisionAt1Hits ≤ m.precisionAt3Hits ∧ m.precisionAt3Hits ≤ m.precisionAt1Total := by
  refine ⟨fun outcome k => topKCandidates_isPrefixOf outcome (Nat.le_succ k), ?_⟩
  intro incidents claims catalogKinds cfg
  refine ⟨fun k => ?_, fun k inc _ => ?_, fun noticed assetCount durationMs => ?_⟩
  · obtain ⟨hsamples, hcensored⟩ := causeTiming_eq claims catalogKinds cfg k incidents
    refine ⟨hsamples, hcensored, ?_⟩
    rw [hsamples, hcensored]
    exact sampled_add_censored claims catalogKinds cfg k incidents
  · have hfollows := follows_firstNamed claims catalogKinds cfg (Nat.le_succ k) inc
    refine ⟨fun hnone => ?_, fun t ht => ?_⟩
    · cases hfirst : firstNamed k claims catalogKinds cfg inc with
      | none => rfl
      | some t =>
        obtain ⟨t', ht', -⟩ := hfollows t hfirst
        rw [hnone] at ht'
        cases ht'
    · obtain ⟨t', ht', hle⟩ := hfollows t ht
      refine ⟨t', ht', hle, fun hsample hsample' => ?_⟩
      rw [hsample, hsample']
      omega
  · have h := counted_evaluate claims catalogKinds cfg incidents
    exact ⟨h.hits_le, h.hits3_le⟩

end Musubi.Pipeline.Eval
