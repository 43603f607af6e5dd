/-
# Absence detection is exact

The rows of an expectation are the overdue stretches between consecutive points of its time line:
the start of its window, the admitted observations in time order, the end of the window.  The loop
computes with signed 64-bit integers; where the differences of the times it is given are
representable, it computes with the integers.

"Exact" means that the specification says what the rows ARE: `ExactRows` lists the consecutive
points, takes those that are overdue, and has one row for each, with what the row says about its
two points (`RowOf`).  No row is missing and none is there twice, as the relation is one between
two lists.

What is admitted does not depend on the order of the observations if no two of a channel have one
time; with equal times the marking of stale values does depend on it, and so does the order in
which a stable sort leaves them.  And an expectation is detected on its own channel: observations
of other channels may be added or dropped (section 5).
-/
import Musubi.Lib.Gaps
import Musubi.Reference.FrozenRule

namespace Musubi.Reference

open Lib

variable {sha256 : List UInt8 → Digest}

/-! ## 1. The time line -/

/-- A time, and the observation that was made then, if it is not an end of the window. -/
abbrev Point := Int64 × Option Observation

def points (window : Int64 × Int64) (good : List Observation) : List Point :=
  (window.1, none) :: ((good.map fun o => (o.tMs, some o)) ++ [(window.2, none)])

def gapOf (p : Point × Point) : Gap := ⟨p.1.1, p.1.2, p.2.2, p.2.1⟩

/-- **The loop walks over the consecutive points.** By induction on the observations, with the
last good one as the variable of the loop. -/
theorem findGaps_eq (threshold windowStart windowEnd : Int64) (good : List Observation) :
    ∀ prev : Option Observation,
      findGaps threshold windowStart windowEnd prev good =
        ((consecutive (((prev.map Observation.tMs).getD windowStart, prev) ::
          ((good.map fun o => (o.tMs, some o)) ++ [(windowEnd, none)]))).filter fun p =>
            threshold < p.2.1 - p.1.1).map gapOf := by
  induction good with
  | nil =>
    intro prev
    rw [findGaps, List.map_nil, List.nil_append, consecutive_cons_cons, consecutive_singleton,
      List.filter_cons, List.filter_nil]
    split
    · rename_i h
      rw [if_pos (by simpa using h)]
      rfl
    · rename_i h
      rw [if_neg (by simpa using h)]
      rfl
  | cons o good ih =>
    intro prev
    rw [findGaps, ih, List.map_cons, List.cons_append, consecutive_cons_cons, List.filter_cons]
    split
    · rename_i h
      rw [if_pos (by simpa using h)]
      rfl
    · rename_i h
      rw [if_neg (by simpa using h)]
      rfl

/-! ## 2. Times whose differences are representable -/

/-- Every difference of two of the times fits.  The code subtracts words and compares the result
as a signed number. -/
def DiffsFit (times : List Int64) : Prop :=
  ∀ a ∈ times, ∀ b ∈ times, InI64 (a.toInt - b.toInt)

instance (times : List Int64) : Decidable (DiffsFit times) :=
  have (a : Int64) : Decidable (∀ b ∈ times, InI64 (a.toInt - b.toInt)) :=
    List.decidableBAll _ times
  List.decidableBAll _ times

/-- The time after which an observation is overdue. -/
def allowed (exp : ExpectationModel) : ℤ := exp.cadenceMs.toNat * exp.graceK.toNat

def Overdue (exp : ExpectationModel) (p : Point × Point) : Prop :=
  allowed exp < p.2.1.toInt - p.1.1.toInt

instance (exp : ExpectationModel) (p : Point × Point) : Decidable (Overdue exp p) :=
  inferInstanceAs (Decidable (_ < _))

theorem toInt_threshold (exp : ExpectationModel) :
    (threshold exp).toInt = min (allowed exp) (2 ^ 63 - 1) := by
  unfold threshold i64OrMax allowed
  rw [toInt_clamp64_of_nonneg (Int.natCast_nonneg _)]
  push_cast
  omega

/-- A threshold that was clamped is never exceeded, as the allowed time is not. -/
theorem threshold_lt_iff {exp : ExpectationModel} {p : Point × Point}
    (h : InI64 (p.2.1.toInt - p.1.1.toInt)) :
    threshold exp < p.2.1 - p.1.1 ↔ Overdue exp p := by
  unfold Overdue
  rw [Int64.lt_iff_toInt_lt, toInt_sub64 h, toInt_threshold]
  have := h.2
  constructor
  · intro hlt
    omega
  · intro hlt
    omega

theorem toInt_expectedBy {exp : ExpectationModel} {p : Point × Point}
    (hfit : InI64 (p.2.1.toInt - p.1.1.toInt)) (h : Overdue exp p) :
    (satAdd64 p.1.1 (threshold exp)).toInt = p.1.1.toInt + allowed exp := by
  unfold Overdue at h
  have hlow := (inI64_toInt p.1.1).1
  have hhigh := (inI64_toInt p.2.1).2
  have hnonneg : 0 ≤ allowed exp := by
    unfold allowed
    positivity
  have hmin : min (allowed exp) (2 ^ 63 - 1) = allowed exp := by
    have := hfit.2
    omega
  unfold satAdd64
  rw [toInt_threshold, hmin]
  refine toInt_clamp64 ?_
  constructor
  · omega
  · omega

/-! ## 3. Rows -/

theorem reasonToken_no_delimiter (basis : ClockBasis) : ';' ∉ basis.reasonToken.toList := by
  cases basis
  all_goals decide +kernel

theorem asLabel_no_delimiter (content : GapContent) : ';' ∉ content.asLabel.toList := by
  cases content
  all_goals decide +kernel

/-- The assertion on the tokens of a mark holds, for every clock and content: the tokens are texts
of the program and numbers, and none of them has the separator. -/
theorem absenceMark_eq_some (basis : ClockBasis) (profile : FamilyProfile)
    (content : Option GapContent) : ∃ mark, absenceMark basis profile content = some mark := by
  have htokens : ∀ t ∈ ["absence-expected-cadence", basis.reasonToken] ++
      (content.map GapContent.asLabel).toList, ';' ∉ t.toList := by
    intro t ht
    rcases List.mem_append.mp ht with ht | ht
    · rcases List.mem_cons.mp ht with rfl | ht
      · decide +kernel
      · rw [List.mem_singleton.mp ht]
        exact reasonToken_no_delimiter basis
    · cases content with
      | none => cases ht
      | some content =>
        rw [List.mem_singleton.mp ht]
        exact asLabel_no_delimiter content
  have hjoin : joinReasonTokens (["absence-expected-cadence", basis.reasonToken] ++
      (content.map GapContent.asLabel).toList) = some _ := if_pos htokens
  exact ⟨_, congrArg (Option.map _) hjoin⟩

theorem bounds_nextGood (basis : ClockBasis) (next : Option Observation) :
    (bounds basis next).nextGood = next.map Observation.digest := by
  cases next with
  | none => rfl
  | some o => rfl

/-- What a row says about the two points it is about: since when nothing has come, by when
something was expected, and the digests of the observations at the two points, where the ends of
the window have none. -/
structure RowOf (profile : FamilyProfile) (assetId : String) (exp : ExpectationModel)
    (p : Point × Point) (row : Row) : Prop where
  subject : row.1.subject = ⟨profile.family, assetId, exp.channel⟩
  expectationId : row.1.expectationId = exp.expectationId ++ "@" ++ profile.version
  absentSince : row.1.absentSinceMs = p.1.1
  expectedBy : row.1.expectedByMs.toInt = p.1.1.toInt + allowed exp
  lastGood : row.1.lastGood = p.1.2.map Observation.digest
  nextGood : row.2.nextGood = p.2.2.map Observation.digest

theorem makeRow_rowOf (profile : FamilyProfile) (assetId : String) (exp : ExpectationModel)
    (src good : List Observation) {p : Point × Point}
    (hfit : InI64 (p.2.1.toInt - p.1.1.toInt)) (h : Overdue exp p) :
    ∃ row, makeRow profile assetId exp src good (gapOf p) = some row ∧
      RowOf profile assetId exp p row := by
  obtain ⟨mark, hmark⟩ := absenceMark_eq_some (goodBasis profile good) profile
    (exp.requiredFields.map fun names => gapContent src exp.channel names p.1.1 p.2.1)
  refine ⟨_, congrArg (Option.map _) hmark, ?_⟩
  constructor
  · rfl
  · rfl
  · rfl
  · exact toInt_expectedBy hfit h
  · rfl
  · exact bounds_nextGood _ p.2.2

/-- A loop that answers for every entry answers for the list.  The relation `R` carries along what
is known of each answer. -/
theorem mapM_eq_some {α β : Type} {f : α → Option β} {R : α → β → Prop} (l : List α)
    (h : ∀ a ∈ l, ∃ b, f a = some b ∧ R a b) :
    ∃ bs, l.mapM f = some bs ∧ List.Forall₂ R l bs := by
  induction l with
  | nil => exact ⟨[], rfl, List.Forall₂.nil⟩
  | cons a l ih =>
    obtain ⟨b, hb, hR⟩ := h a List.mem_cons_self
    obtain ⟨bs, hbs, hRs⟩ := ih fun a ha => h a (List.mem_cons_of_mem _ ha)
    refine ⟨b :: bs, ?_, hRs.cons hR⟩
    rw [List.mapM_cons, hb, hbs]
    rfl

theorem mapM_congr {α β : Type} {f g : α → Option β} {l : List α} (h : ∀ a ∈ l, f a = g a) :
    l.mapM f = l.mapM g := by
  induction l with
  | nil => rfl
  | cons a l ih =>
    rw [List.mapM_cons, List.mapM_cons, h a List.mem_cons_self,
      ih fun a ha => h a (List.mem_cons_of_mem _ ha)]

/-! ## 4. What is admitted -/

/-- The observations that the expectation looks at. -/
def windowed (exp : ExpectationModel) (obs : List Observation) (window : Int64 × Int64) :
    List Observation :=
  if exp.declaredWindowOnly then obs.filter fun o => window.1 ≤ o.tMs ∧ o.tMs ≤ window.2 else obs

theorem expSource_eq (exp : ExpectationModel) (obs : List Observation) (window : Int64 × Int64) :
    expSource sha256 exp obs window =
      match exp.frozenMs with
      | some f =>
        applyFrozenFieldsRule sha256 (windowed exp obs window) exp.channel f exp.frozenFields
      | none => windowed exp obs window := rfl

theorem admits_channel {exp : ExpectationModel} {o : Observation} (h : admits exp o = true) :
    o.channel = exp.channel := by
  unfold admits at h
  rw [Bool.and_eq_true, Bool.and_eq_true] at h
  exact of_decide_eq_true h.1.1

/-- The times of what the expectation sees are times of the observations. -/
theorem mem_expSource_time {exp : ExpectationModel} {obs : List Observation}
    {window : Int64 × Int64} {o : Observation} (h : o ∈ expSource sha256 exp obs window) :
    ∃ o' ∈ obs, o'.tMs = o.tMs := by
  have hwindowed : ∀ o' ∈ windowed exp obs window, o' ∈ obs := by
    intro o' ho'
    unfold windowed at ho'
    split at ho'
    · exact (List.mem_filter.mp ho').1
    · exact ho'
  rw [expSource_eq] at h
  split at h
  · rw [applyFrozenFieldsRule_eq] at h
    obtain ⟨entry, hentry, rfl⟩ := List.mem_map.mp h
    exact ⟨entry.1, hwindowed _ (List.fst_mem_of_mem_zipIdx hentry), (markIf_tMs _ _).symm⟩
  · exact ⟨o, hwindowed o h, rfl⟩

theorem DistinctTimes.windowed {exp : ExpectationModel} {obs : List Observation}
    (h : DistinctTimes exp.channel obs) (window : Int64 × Int64) :
    DistinctTimes exp.channel (windowed exp obs window) := by
  unfold Reference.windowed
  split
  · exact h.sublist List.filter_sublist
  · exact h

theorem DistinctTimes.expSource {exp : ExpectationModel} {obs : List Observation}
    (h : DistinctTimes exp.channel obs) (window : Int64 × Int64) :
    DistinctTimes exp.channel (expSource sha256 exp obs window) := by
  rw [expSource_eq]
  split
  · rw [applyFrozenFieldsRule_of_distinct (h.windowed window)]
    refine List.pairwise_map.mpr ((h.windowed window).imp ?_)
    intro a b hab
    rw [markIf_channel, markIf_channel, markIf_tMs, markIf_tMs]
    exact hab
  · exact h.windowed window

/-- The same observations in another order are seen in another order.  Distinct times are needed,
since what is stale depends on which of two observations of one time comes first. -/
theorem expSource_perm {exp : ExpectationModel} {obs obs' : List Observation}
    (hperm : obs.Perm obs') (h : DistinctTimes exp.channel obs) (window : Int64 × Int64) :
    (expSource sha256 exp obs window).Perm (expSource sha256 exp obs' window) := by
  have hwindowed : (windowed exp obs window).Perm (windowed exp obs' window) := by
    unfold windowed
    split
    · exact hperm.filter _
    · exact hperm
  rw [expSource_eq, expSource_eq]
  split
  · exact applyFrozenFieldsRule_perm hwindowed (h.windowed window)
  · exact hwindowed

/-- The observations of the channel are seen as they would be without the others. -/
theorem filter_expSource {exp : ExpectationModel} {obs obs' : List Observation}
    (h : (obs.filter fun o => o.channel = exp.channel) =
      obs'.filter fun o => o.channel = exp.channel) (window : Int64 × Int64) :
    ((expSource sha256 exp obs window).filter fun o => o.channel = exp.channel) =
      (expSource sha256 exp obs' window).filter fun o => o.channel = exp.channel := by
  have hwindowed : ((windowed exp obs window).filter fun o => o.channel = exp.channel) =
      (windowed exp obs' window).filter fun o => o.channel = exp.channel := by
    unfold windowed
    split
    · rw [List.filter_comm, h, List.filter_comm]
    · exact h
  rw [expSource_eq, expSource_eq]
  split
  · rw [filter_applyFrozenFieldsRule, filter_applyFrozenFieldsRule, hwindowed]
  · exact hwindowed

/-! ## 5. What the rows depend on -/

theorem gapContent_filter (src : List Observation) (channel : ChannelId) (names : List String)
    (since until_ : Int64) :
    gapContent (src.filter fun o => o.channel = channel) channel names since until_ =
      gapContent src channel names since until_ := by
  unfold gapContent
  rw [List.filter_filter]
  have hfilter : (fun o : Observation =>
      decide (o.channel = channel ∧ since ≤ o.tMs ∧ o.tMs < until_) &&
        decide (o.channel = channel)) =
      fun o => decide (o.channel = channel ∧ since ≤ o.tMs ∧ o.tMs < until_) := by
    funext o
    rw [← Bool.decide_and]
    refine decide_eq_decide.mpr ?_
    constructor
    · exact And.left
    · exact fun h => ⟨h, h.1⟩
  rw [hfilter]

theorem gapContent_perm {src src' : List Observation} (hperm : src.Perm src')
    (channel : ChannelId) (names : List String) (since until_ : Int64) :
    gapContent src channel names since until_ = gapContent src' channel names since until_ := by
  unfold gapContent
  simp only [List.Perm.any_eq (hperm.filter _)]

theorem goodObservations_filter (exp : ExpectationModel) (src : List Observation) :
    goodObservations exp (src.filter fun o => o.channel = exp.channel) =
      goodObservations exp src := by
  unfold goodObservations
  rw [List.filter_filter]
  have hfilter : (fun o : Observation => admits exp o && decide (o.channel = exp.channel)) =
      admits exp := by
    funext o
    unfold admits
    cases decide (o.channel = exp.channel)
    · rfl
    · exact Bool.and_true _
  rw [hfilter]

theorem goodObservations_perm {exp : ExpectationModel} {src src' : List Observation}
    (hperm : src.Perm src') (h : DistinctTimes exp.channel src) :
    goodObservations exp src = goodObservations exp src' := by
  unfold goodObservations
  refine sortByTime_perm (hperm.filter _) ?_
  rw [List.pairwise_filter]
  refine h.imp ?_
  intro a b hab ha hb
  exact hab (admits_channel ha) (admits_channel hb)

/-- The rows depend on what is seen through the good observations and the contents of gaps. -/
theorem detectExpectation_congr {profile : FamilyProfile} {assetId : String}
    {obs obs' : List Observation} {scan declared : Int64 × Int64} {exp : ExpectationModel}
    (hgood : goodObservations exp (expSource sha256 exp obs (expWindow exp scan declared)) =
      goodObservations exp (expSource sha256 exp obs' (expWindow exp scan declared)))
    (hcontent : ∀ names since until_,
      gapContent (expSource sha256 exp obs (expWindow exp scan declared)) exp.channel names
          since until_ =
        gapContent (expSource sha256 exp obs' (expWindow exp scan declared)) exp.channel names
          since until_) :
    detectExpectation sha256 profile assetId obs scan declared exp =
      detectExpectation sha256 profile assetId obs' scan declared exp := by
  unfold detectExpectation makeRow
  simp only [hgood, hcontent]

/-! ## 6. Exactness -/

/-- The rows of an expectation: one for every overdue pair of consecutive points, with no admitted
observation between the points of a pair.  `good` are the admitted observations in the order of
their times. -/
structure ExactRows (sha256 : List UInt8 → Digest) (profile : FamilyProfile) (assetId : String)
    (obs : List Observation) (scan declared : Int64 × Int64) (exp : ExpectationModel)
    (rows : List Row) : Prop where
  answer : detectExpectation sha256 profile assetId obs scan declared exp = some rows
  timeLine : ∃ good : List Observation,
    good.Perm ((expSource sha256 exp obs (expWindow exp scan declared)).filter (admits exp)) ∧
    good.Pairwise (fun a b => a.tMs ≤ b.tMs) ∧
    List.Forall₂ (RowOf profile assetId exp)
      ((consecutive (points (expWindow exp scan declared) good)).filter (Overdue exp)) rows ∧
    ∀ p ∈ consecutive (points (expWindow exp scan declared) good), ∀ o ∈ good,
      ¬ (p.1.1 < o.tMs ∧ o.tMs < p.2.1)

theorem mem_points_time {window : Int64 × Int64} {good : List Observation} {p : Point}
    (h : p ∈ points window good) :
    p.1 = window.1 ∨ p.1 = window.2 ∨ ∃ o ∈ good, o.tMs = p.1 := by
  rcases List.mem_cons.mp h with rfl | h
  · exact Or.inl rfl
  · rcases List.mem_append.mp h with h | h
    · obtain ⟨o, ho, rfl⟩ := List.mem_map.mp h
      exact Or.inr (Or.inr ⟨o, ho, rfl⟩)
    · rw [List.mem_singleton.mp h]
      exact Or.inr (Or.inl rfl)

/-- The times that the detection subtracts from each other. -/
def allTimes (obs : List Observation) (scan declared : Int64 × Int64) : List Int64 :=
  scan.1 :: scan.2 :: declared.1 :: declared.2 :: obs.map Observation.tMs

theorem mem_allTimes_of_window {obs : List Observation} {scan declared : Int64 × Int64}
    (exp : ExpectationModel) :
    (expWindow exp scan declared).1 ∈ allTimes obs scan declared ∧
      (expWindow exp scan declared).2 ∈ allTimes obs scan declared := by
  unfold expWindow allTimes
  split
  · constructor
    · simp
    · simp
  · constructor
    · simp
    · simp

theorem detectExpectation_exact (profile : FamilyProfile) (assetId : String)
    {obs : List Observation} {scan declared : Int64 × Int64}
    (hfit : DiffsFit (allTimes obs scan declared)) (exp : ExpectationModel) :
    ∃ rows, detectExpectation sha256 profile assetId obs scan declared exp = some rows ∧
      ExactRows sha256 profile assetId obs scan declared exp rows := by
  let window := expWindow exp scan declared
  let src := expSource sha256 exp obs window
  let good := goodObservations exp src
  have hperm : good.Perm (src.filter (admits exp)) := List.perm_insertionSort _ _
  have hsorted : good.Pairwise fun a b => a.tMs ≤ b.tMs := pairwise_sortByTime _ _
  have htime : ∀ p ∈ points window good, p.1 ∈ allTimes obs scan declared := by
    intro p hp
    rcases mem_points_time hp with h | h | ⟨o, ho, h⟩
    · rw [h]
      exact (mem_allTimes_of_window exp).1
    · rw [h]
      exact (mem_allTimes_of_window exp).2
    · obtain ⟨o', ho', h'⟩ := mem_expSource_time (List.mem_filter.mp (hperm.mem_iff.mp ho)).1
      rw [← h, ← h']
      have hmem : o'.tMs ∈ obs.map Observation.tMs := List.mem_map_of_mem ho'
      unfold allTimes
      simp [hmem]
  have hpair : ∀ p ∈ consecutive (points window good), InI64 (p.2.1.toInt - p.1.1.toInt) := by
    intro p hp
    obtain ⟨h1, h2⟩ := mem_of_mem_consecutive hp
    exact hfit _ (htime _ h2) _ (htime _ h1)
  have hgaps : findGaps (threshold exp) window.1 window.2 none good =
      ((consecutive (points window good)).filter (Overdue exp)).map gapOf := by
    rw [findGaps_eq]
    refine congrArg (List.map gapOf) (List.filter_congr fun p hp => ?_)
    exact decide_eq_decide.mpr (threshold_lt_iff (hpair p hp))
  obtain ⟨rows, hrows, hfacts⟩ := mapM_eq_some
    (f := fun p => makeRow profile assetId exp src good (gapOf p))
    ((consecutive (points window good)).filter (Overdue exp)) fun p hp => by
      obtain ⟨hp, hoverdue⟩ := List.mem_filter.mp hp
      exact makeRow_rowOf profile assetId exp src good (hpair p hp) (of_decide_eq_true hoverdue)
  have hanswer : detectExpectation sha256 profile assetId obs scan declared exp = some rows := by
    unfold detectExpectation
    simp only
    rw [hgaps, List.mapM_map]
    exact hrows
  refine ⟨rows, hanswer, hanswer, good, hperm, hsorted, hfacts, ?_⟩
  intro p hp o ho
  have hpoints : (good.map fun o => ((o.tMs, some o) : Point)).Pairwise
      fun a b => a.1.toInt ≤ b.1.toInt :=
    List.pairwise_map.mpr (hsorted.imp fun h => Int64.le_iff_toInt_le.mp h)
  have hnot := not_between (x := ((o.tMs, some o) : Point)) hpoints hp (List.mem_map_of_mem ho)
  rw [Int64.lt_iff_toInt_lt, Int64.lt_iff_toInt_lt]
  exact hnot

/-- **Absence detection is exact.** Where the differences of the times are representable, every
expectation has exactly the rows of its overdue stretches.  Observations with distinct times may
come in any order, and the rows of an expectation depend on its channel alone.  `hfit` is about
all times that are subtracted, those of the windows among them; the code compares wrapped
differences, and without it a stretch of half the range would count as negative.  Profile, windows
and observations are arbitrary, and that the answer is `some` says that no assertion fails. -/
theorem detectAbsences_exact (sha256 : List UInt8 → Digest) (profile : FamilyProfile)
    (assetId : String) (obs : List Observation) (scan declared : Int64 × Int64)
    (hfit : DiffsFit (allTimes obs scan declared)) :
    (∃ rows : List (List Row),
      detectAbsencesInDeclaredWindow sha256 profile assetId obs scan declared =
          some rows.flatten ∧
        List.Forall₂ (ExactRows sha256 profile assetId obs scan declared) profile.expectations
          rows) ∧
    (∀ obs', obs.Perm obs' → (∀ exp ∈ profile.expectations, DistinctTimes exp.channel obs) →
      detectAbsencesInDeclaredWindow sha256 profile assetId obs' scan declared =
        detectAbsencesInDeclaredWindow sha256 profile assetId obs scan declared) ∧
    ∀ exp ∈ profile.expectations, ∀ obs',
      (obs'.filter fun o => o.channel = exp.channel) =
          (obs.filter fun o => o.channel = exp.channel) →
        detectExpectation sha256 profile assetId obs' scan declared exp =
          detectExpectation sha256 profile assetId obs scan declared exp := by
  refine ⟨?_, ?_, ?_⟩
  · obtain ⟨rows, hrows, hexact⟩ := mapM_eq_some profile.expectations fun exp _ =>
      detectExpectation_exact profile assetId hfit exp
    refine ⟨rows, ?_, hexact⟩
    unfold detectAbsencesInDeclaredWindow
    rw [hrows]
    rfl
  · intro obs' hperm hdistinct
    unfold detectAbsencesInDeclaredWindow
    refine congrArg (Option.map List.flatten) (mapM_congr fun exp hexp => ?_)
    have h := hdistinct exp hexp
    refine detectExpectation_congr ?_ ?_
    · exact (goodObservations_perm (expSource_perm hperm h _) (h.expSource _)).symm
    · intro names since until_
      exact (gapContent_perm (expSource_perm hperm h _) _ _ _ _).symm
  · intro exp _ obs' hfilter
    refine detectExpectation_congr ?_ ?_
    · rw [← goodObservations_filter, filter_expSource hfilter, goodObservations_filter]
    · intro names since until_
      rw [← gapContent_filter, filter_expSource hfilter, gapContent_filter]

/-! ## 7. A silence at the end of a window -/

/-- A heartbeat every second, late after two. -/
def heartbeatExpectation : ExpectationModel where
  expectationId := "heartbeat"
  channel := .heartbeat
  cadenceMs := 1000
  graceK := 2
  frozenMs := none
  frozenFields := none
  requiredFields := none
  declaredWindowOnly := false

def heartbeatProfile : FamilyProfile where
  profileId := "ugv"
  version := "1"
  family := .ugv
  sourceRole := .fc
  format := "csv"
  extensions := ["csv"]
  fields := ⟨"time", [], [], [], [], []⟩
  fieldUnits := BTreeMap.empty
  channels := [.heartbeat]
  expectations := [heartbeatExpectation]
  defaultClockBasis := .gpsLocked
  declaredPlatformDomain := none
  declaredSender := none
  declaredClockRate := none
  origin := "recorded"

def heartbeatAt (tMs : Int64) : Observation where
  tMs := tMs
  clockBasis := .gpsLocked
  timeConfidence := .ofRat (9 / 10)
  sourceRole := .fc
  channel := .heartbeat
  fields := []
  stale := false
  digest := Sha256.hash []
  tBootUs := none
  anchorUnixUs := none
  wallMs := none

/-- Two heartbeats, then none: one row. -/
theorem heartbeat_silence :
    ∃ rows, detectAbsencesInDeclaredWindow Sha256.hash heartbeatProfile "asset"
        [heartbeatAt 2000, heartbeatAt 1000] (0, 9000) (0, 9000) = some (List.flatten rows) ∧
      List.Forall₂ (ExactRows Sha256.hash heartbeatProfile "asset"
        [heartbeatAt 2000, heartbeatAt 1000] (0, 9000) (0, 9000)) [heartbeatExpectation] rows :=
  (detectAbsences_exact Sha256.hash heartbeatProfile "asset"
    [heartbeatAt 2000, heartbeatAt 1000] (0, 9000) (0, 9000) (by decide)).1

end Musubi.Reference
