/-
# What the matching of signatures returns

`match_signatures` goes once through a catalog and gathers two tiers of candidates: those all of
whose required cues are there, and those some of whose are.  The tiers are said here of the
signatures themselves, in the order of the catalog (`fullTier`, `partialTier`), and every branch
of the outcome is one of them alone, both, or none (`matchSignatures_eq`).

## Main results

`matchSignatures_sound` has it in one piece.  Every candidate is of a signature of the catalog
that can match, and every signature that matches in full has its candidate; the outcome is
ambiguous exactly when the best tier that is not empty has two members or more; and where the
times are not to be trusted a candidate is a leading indicator only.  Its last part is about the
order of the catalog (`matchSignatures_perm`): two catalogs with the same signatures give the same
candidates up to order, and the same outcome otherwise, because the texts that would tell the
candidates apart are put in order by the code itself.
-/
import Musubi.Reference.Cause

namespace Musubi.Reference

open Lib

variable {catalog : SignatureCatalog} {family : Family} {cues : CueSet} {sig : FailureSignature}

/-! ## 1. Signatures that can match -/

/-- The cue is among those that were found. -/
def IsPresent (cues : CueSet) (c : Cue) : Prop := (c.channel, c.cueId) ∈ cues.present

instance (cues : CueSet) : DecidablePred (IsPresent cues) :=
  fun _ => inferInstanceAs (Decidable (_ ∈ _))

/-- The signature is one for the family, all its required channels are observed, and its
cues support it and do not contradict it. -/
def Eligible (family : Family) (cues : CueSet) (sig : FailureSignature) : Prop :=
  (sig.families = [] ∨ family ∈ sig.families) ∧
  (∀ c ∈ sig.requiredCues, c.channel ∈ cues.observedChannels) ∧
  (∀ c ∈ sig.contradictingCues, ¬ IsPresent cues c) ∧
  ∃ c ∈ sig.requiredCues, IsPresent cues c

def AllPresent (cues : CueSet) (sig : FailureSignature) : Prop :=
  ∀ c ∈ sig.requiredCues, IsPresent cues c

/-- A cue of the signature is there that does not only say that something goes on.  Signs of life
alone make no candidate. -/
def Telling (cues : CueSet) (sig : FailureSignature) : Prop :=
  ∃ c ∈ sig.requiredCues, IsPresent cues c ∧ isStateCue c.label = false

instance (family : Family) (cues : CueSet) : DecidablePred (Eligible family cues) :=
  fun _ => inferInstanceAs (Decidable (_ ∧ _ ∧ _ ∧ _))

instance (cues : CueSet) : DecidablePred (AllPresent cues) :=
  fun _ => inferInstanceAs (Decidable (∀ c ∈ _, _))

instance (cues : CueSet) : DecidablePred (Telling cues) :=
  fun _ => inferInstanceAs (Decidable (∃ c ∈ _, _))

/-- The signatures that match in full, and those that match in part. -/
def fullTier (catalog : SignatureCatalog) (family : Family) (cues : CueSet) :
    List FailureSignature :=
  catalog.signatures.filter fun sig => Eligible family cues sig ∧ AllPresent cues sig

def partialTier (catalog : SignatureCatalog) (family : Family) (cues : CueSet) :
    List FailureSignature :=
  catalog.signatures.filter fun sig =>
    Eligible family cues sig ∧ ¬ AllPresent cues sig ∧ Telling cues sig

/-- The best tier that is not empty. -/
def bestTier (catalog : SignatureCatalog) (family : Family) (cues : CueSet) :
    List FailureSignature :=
  if fullTier catalog family cues = [] then partialTier catalog family cues
  else fullTier catalog family cues

/-! ## 2. The tests of the source -/

theorem has_iff (c : Cue) : cues.has c = true ↔ IsPresent cues c := decide_eq_true_iff

theorem appliesTo_iff :
    sig.appliesTo family = true ↔ sig.families = [] ∨ family ∈ sig.families := by
  rw [FailureSignature.appliesTo, Bool.or_eq_true, List.isEmpty_iff, List.contains_iff_mem]

theorem missing_isEmpty_iff : (sig.missing cues).isEmpty = true ↔
    ∀ c ∈ sig.requiredCues, c.channel ∈ cues.observedChannels := by
  rw [FailureSignature.missing, List.isEmpty_iff, List.map_eq_nil_iff, List.filter_eq_nil_iff]
  refine forall₂_congr fun c _ => ?_
  rw [CueSet.observes, Bool.not_eq_true', decide_eq_false_iff_not, not_not]

theorem isFull_iff : sig.isFull cues = true ↔ AllPresent cues sig := by
  rw [FailureSignature.isFull, decide_eq_true_iff, List.length_filter_eq_length_iff]
  exact forall₂_congr fun c _ => has_iff c

theorem matched_isEmpty_iff (among : List Cue) :
    ((among.filter cues.has).map Cue.label).isEmpty = true ↔ ∀ c ∈ among, ¬ IsPresent cues c := by
  rw [List.isEmpty_iff, List.map_eq_nil_iff, List.filter_eq_nil_iff]
  exact forall₂_congr fun c _ => not_congr (has_iff c)

theorem all_isStateCue_iff :
    ((sig.requiredCues.filter cues.has).map Cue.label).all isStateCue = true ↔
      ¬ Telling cues sig := by
  rw [List.all_map, List.all_eq_true, Telling, not_exists]
  refine forall_congr' fun c => ?_
  rw [List.mem_filter, has_iff, Function.comp_apply, ← Bool.not_eq_false, not_and, not_and,
    and_imp]

/-- **When there is a candidate.** -/
theorem candidateOf_isSome_iff : (candidateOf cues sig).isSome = true ↔
    (∀ c ∈ sig.contradictingCues, ¬ IsPresent cues c) ∧
      (∃ c ∈ sig.requiredCues, IsPresent cues c) ∧ (AllPresent cues sig ∨ Telling cues sig) := by
  have hmatched := @matched_isEmpty_iff cues sig.requiredCues
  have hcontradicting := @matched_isEmpty_iff cues sig.contradictingCues
  have hstate := @all_isStateCue_iff cues sig
  have hfull := @isFull_iff cues sig
  have hexists : (¬ ∀ c ∈ sig.requiredCues, ¬ IsPresent cues c) ↔
      ∃ c ∈ sig.requiredCues, IsPresent cues c := by
    simp only [not_forall, not_not, exists_prop]
  rw [← hexists, ← hmatched, ← hcontradicting, ← hfull]
  unfold candidateOf
  dsimp only
  split
  · rename_i hnone
    refine iff_of_false (by simp) ?_
    rintro ⟨hcontradicting, hmatched, -⟩
    rw [hcontradicting, Bool.eq_false_of_not_eq_true hmatched] at hnone
    cases hnone
  · rename_i hsome
    rw [Bool.or_eq_true, not_or, Bool.not_eq_true', Bool.not_eq_false] at hsome
    split
    · rename_i hweak
      refine iff_of_false (by simp) ?_
      rw [Bool.and_eq_true, Bool.not_eq_true', hstate, ← Bool.not_eq_true] at hweak
      rintro ⟨-, -, h | h⟩
      · exact hweak.1 h
      · exact hweak.2 h
    · rename_i hstrong
      refine iff_of_true rfl ⟨hsome.2, hsome.1, ?_⟩
      rw [Bool.and_eq_true, Bool.not_eq_true', hstate, ← Bool.not_eq_true] at hstrong
      by_contra hneither
      rw [not_or] at hneither
      exact hstrong hneither

theorem of_candidateOf_eq_some {c : CauseCandidate} (h : candidateOf cues sig = some c) :
    c.signatureId = sig.signatureId ∧ c.logicConfidence = logicConfidence sig cues := by
  unfold candidateOf at h
  dsimp only at h
  split at h
  · cases h
  · split at h
    · cases h
    · cases h
      exact ⟨rfl, rfl⟩

theorem logicConfidence_of_untrusted (h : cues.timeUntrusted = true) :
    logicConfidence sig cues = .leadingIndicator := by
  rw [logicConfidence, h, Bool.not_true, Bool.and_false, if_neg Bool.false_ne_true]

/-! ## 3. The two tiers of candidates -/

def fullCandidates (catalog : SignatureCatalog) (family : Family) (cues : CueSet) :
    List CauseCandidate :=
  (fullTier catalog family cues).filterMap (candidateOf cues)

def partialCandidates (catalog : SignatureCatalog) (family : Family) (cues : CueSet) :
    List CauseCandidate :=
  (partialTier catalog family cues).filterMap (candidateOf cues)

/-- Tests that agree where there is something to keep select the same, since the rest is dropped
anyway. -/
theorem filterMap_filter_congr {α β : Type} {f : α → Option β} {p q : α → Bool} {l : List α}
    (h : ∀ a ∈ l, (f a).isSome = true → p a = q a) :
    (l.filter p).filterMap f = (l.filter q).filterMap f := by
  rw [List.filterMap_filter, List.filterMap_filter]
  refine List.filterMap_congr fun a ha => ?_
  cases hf : f a with
  | none =>
    split
    · split
      · rfl
      · rfl
    · split
      · rfl
      · rfl
  | some b => rw [h a ha (by rw [hf]; rfl)]

/-- The candidates that the source gathers first are those of the full tier. -/
theorem full_eq : (((catalog.signatures.filter fun sig => sig.appliesTo family).filter
      fun sig => (sig.missing cues).isEmpty).filter fun sig => sig.isFull cues).filterMap
        (candidateOf cues) = fullCandidates catalog family cues := by
  rw [List.filter_filter, List.filter_filter, fullCandidates, fullTier]
  refine filterMap_filter_congr fun sig _ hsome => ?_
  obtain ⟨hcontradicting, hsupported, -⟩ := candidateOf_isSome_iff.mp hsome
  rw [Bool.eq_iff_iff, Bool.and_eq_true, Bool.and_eq_true, isFull_iff, missing_isEmpty_iff,
    appliesTo_iff, decide_eq_true_iff]
  constructor
  · rintro ⟨⟨hfull, hobserved⟩, happlies⟩
    exact ⟨⟨happlies, hobserved, hcontradicting, hsupported⟩, hfull⟩
  · rintro ⟨⟨happlies, hobserved, -, -⟩, hfull⟩
    exact ⟨⟨hfull, hobserved⟩, happlies⟩

theorem partial_eq : (((catalog.signatures.filter fun sig => sig.appliesTo family).filter
      fun sig => (sig.missing cues).isEmpty).filter fun sig => !sig.isFull cues).filterMap
        (candidateOf cues) = partialCandidates catalog family cues := by
  rw [List.filter_filter, List.filter_filter, partialCandidates, partialTier]
  refine filterMap_filter_congr fun sig _ hsome => ?_
  obtain ⟨hcontradicting, hsupported, htelling⟩ := candidateOf_isSome_iff.mp hsome
  rw [Bool.eq_iff_iff, Bool.and_eq_true, Bool.and_eq_true, Bool.not_eq_true',
    ← Bool.not_eq_true, isFull_iff, missing_isEmpty_iff, appliesTo_iff, decide_eq_true_iff]
  constructor
  · rintro ⟨⟨hnotFull, hobserved⟩, happlies⟩
    exact ⟨⟨happlies, hobserved, hcontradicting, hsupported⟩, hnotFull,
      htelling.resolve_left hnotFull⟩
  · rintro ⟨⟨happlies, hobserved, -, -⟩, hnotFull, -⟩
    exact ⟨⟨hnotFull, hobserved⟩, happlies⟩

theorem length_filterMap_of_isSome {α β : Type} {f : α → Option β} {l : List α}
    (h : ∀ a ∈ l, (f a).isSome = true) : (l.filterMap f).length = l.length := by
  rw [List.length_filterMap_eq_countP, List.countP_eq_length]
  exact h

/-- Every signature of a tier has its candidate, so counting candidates is counting signatures. -/
theorem length_fullCandidates :
    (fullCandidates catalog family cues).length = (fullTier catalog family cues).length := by
  refine length_filterMap_of_isSome fun sig hsig => candidateOf_isSome_iff.mpr ?_
  obtain ⟨⟨-, -, hcontradicting, hsupported⟩, hfull⟩ :=
    of_decide_eq_true (List.mem_filter.mp hsig).2
  exact ⟨hcontradicting, hsupported, Or.inl hfull⟩

theorem length_partialCandidates :
    (partialCandidates catalog family cues).length = (partialTier catalog family cues).length := by
  refine length_filterMap_of_isSome fun sig hsig => candidateOf_isSome_iff.mpr ?_
  obtain ⟨⟨-, -, hcontradicting, hsupported⟩, -, htelling⟩ :=
    of_decide_eq_true (List.mem_filter.mp hsig).2
  exact ⟨hcontradicting, hsupported, Or.inr htelling⟩

/-! ## 4. The outcome -/

/-- The candidates that an outcome names. -/
def CauseOutcome.candidates : CauseOutcome → List CauseCandidate
  | .consistent candidates => candidates
  | .ambiguous candidates _ => candidates
  | .unknown _ => []

/-- The same outcome, its candidates in any order.  What an ambiguous one could be told apart by
is the same list. -/
def CauseOutcome.SameAs : CauseOutcome → CauseOutcome → Prop
  | .consistent candidates, .consistent candidates' => candidates.Perm candidates'
  | .ambiguous candidates by_, .ambiguous candidates' by_' =>
    candidates.Perm candidates' ∧ by_ = by_'
  | .unknown reason, .unknown reason' => reason = reason'
  | _, _ => False

/-- What no signature matches is unknown. -/
def noMatch (catalog : SignatureCatalog) (family : Family) (cues : CueSet) : UnknownReason :=
  if (catalog.signatures.filter fun sig => sig.appliesTo family) = [] then .noSignatureMatch
  else if cues.present = ∅ then .insufficientEvidence
  else if ∃ sig ∈ catalog.signatures, sig.appliesTo family = true ∧ sig.missing cues ≠ [] then
    .channelNotObserved
  else .noSignatureMatch

/-- The outcome by the sizes of the tiers. -/
theorem matchSignatures_eq (catalog : SignatureCatalog) (family : Family) (cues : CueSet) :
    matchSignatures catalog family cues =
      if (fullCandidates catalog family cues).length = 1 then
        .consistent (fullCandidates catalog family cues ++ partialCandidates catalog family cues)
      else if 2 ≤ (fullCandidates catalog family cues).length then
        .ambiguous (fullCandidates catalog family cues)
          (orderedTexts ((fullCandidates catalog family cues).flatMap (·.discriminatingMissing)))
      else if (partialCandidates catalog family cues).length = 1 then
        .consistent (partialCandidates catalog family cues)
      else if 2 ≤ (partialCandidates catalog family cues).length then
        .ambiguous (partialCandidates catalog family cues)
          (orderedTexts
            ((partialCandidates catalog family cues).flatMap (·.discriminatingMissing) ++
              (partialCandidates catalog family cues).flatMap unmatchedRequired))
      else .unknown (noMatch catalog family cues) := by
  have hundefined : ((catalog.signatures.filter fun sig => sig.appliesTo family).flatMap
      fun sig => sig.missing cues).isEmpty = false ↔
      ∃ sig ∈ catalog.signatures, sig.appliesTo family = true ∧ sig.missing cues ≠ [] := by
    rw [← Bool.not_eq_true, List.isEmpty_iff, List.flatMap_eq_nil_iff]
    simp only [List.mem_filter, and_imp, not_forall, exists_prop, ne_eq]
  unfold matchSignatures
  dsimp only
  rw [full_eq, partial_eq]
  split
  · rename_i hnone
    rw [List.isEmpty_iff] at hnone
    have hnone' : ∀ sig ∈ catalog.signatures, ¬ (sig.families = [] ∨ family ∈ sig.families) := by
      intro sig hsig happlies
      exact List.filter_eq_nil_iff.mp hnone sig hsig (appliesTo_iff.mpr happlies)
    have hfull : fullCandidates catalog family cues = [] := by
      rw [fullCandidates, fullTier, List.filter_eq_nil_iff.mpr ?_]
      · rfl
      · intro sig hsig h
        exact hnone' sig hsig (of_decide_eq_true h).1.1
    have hpartly : partialCandidates catalog family cues = [] := by
      rw [partialCandidates, partialTier, List.filter_eq_nil_iff.mpr ?_]
      · rfl
      · intro sig hsig h
        exact hnone' sig hsig (of_decide_eq_true h).1.1
    rw [hfull, hpartly, noMatch, if_pos hnone]
    rfl
  · rename_i hsome
    rw [List.isEmpty_iff] at hsome
    match fullCandidates catalog family cues, partialCandidates catalog family cues with
    | [c], _ => rfl
    | _ :: _ :: _, _ => simp
    | [], [c] => rfl
    | [], _ :: _ :: _ => simp
    | [], [] =>
      simp only [List.length_nil, noMatch, if_neg hsome, Bool.not_eq_true', hundefined,
        apply_ite CauseOutcome.unknown]
      rfl

/-- Where there is a full match, it is named, and what is named is of a tier. -/
theorem candidates_subset {c : CauseCandidate}
    (h : c ∈ (matchSignatures catalog family cues).candidates) :
    c ∈ fullCandidates catalog family cues ∨ c ∈ partialCandidates catalog family cues := by
  rw [matchSignatures_eq] at h
  split at h
  · exact List.mem_append.mp h
  · split at h
    · exact Or.inl h
    · split at h
      · exact Or.inr h
      · split at h
        · exact Or.inr h
        · cases h

/-- A candidate is that of a signature that can match: it is in the catalog, and eligible. -/
theorem signature_of_candidate {c : CauseCandidate}
    (h : c ∈ (matchSignatures catalog family cues).candidates) :
    ∃ sig ∈ catalog.signatures, Eligible family cues sig ∧ candidateOf cues sig = some c := by
  rcases candidates_subset h with h | h
  · obtain ⟨sig, hsig, hcandidate⟩ := List.mem_filterMap.mp h
    obtain ⟨hmem, heligible⟩ := List.mem_filter.mp hsig
    exact ⟨sig, hmem, (of_decide_eq_true heligible).1, hcandidate⟩
  · obtain ⟨sig, hsig, hcandidate⟩ := List.mem_filterMap.mp h
    obtain ⟨hmem, heligible⟩ := List.mem_filter.mp hsig
    exact ⟨sig, hmem, (of_decide_eq_true heligible).1, hcandidate⟩

theorem full_subset_candidates {c : CauseCandidate}
    (h : c ∈ fullCandidates catalog family cues) :
    c ∈ (matchSignatures catalog family cues).candidates := by
  rw [matchSignatures_eq]
  split
  · exact List.mem_append_left _ h
  · have hpos := List.length_pos_of_mem h
    rw [if_pos (by omega)]
    exact h

theorem ambiguous_iff :
    (∃ candidates by_, matchSignatures catalog family cues = .ambiguous candidates by_) ↔
      2 ≤ (bestTier catalog family cues).length := by
  have hempty : fullTier catalog family cues = [] ↔
      (fullTier catalog family cues).length = 0 := List.length_eq_zero_iff.symm
  rw [matchSignatures_eq, length_fullCandidates, length_partialCandidates, bestTier]
  split
  · refine iff_of_false nofun ?_
    rw [if_neg (by rw [hempty]; omega)]
    omega
  · split
    · refine iff_of_true ⟨_, _, rfl⟩ ?_
      rw [if_neg (by rw [hempty]; omega)]
      omega
    · rw [if_pos (hempty.mpr (by omega))]
      split
      · exact iff_of_false nofun (by omega)
      · split
        · exact iff_of_true ⟨_, _, rfl⟩ (by omega)
        · exact iff_of_false nofun (by omega)

/-! ## 5. The order of the catalog -/

theorem fullCandidates_perm {catalog' : SignatureCatalog}
    (h : catalog'.signatures.Perm catalog.signatures) :
    (fullCandidates catalog' family cues).Perm (fullCandidates catalog family cues) :=
  (h.filter _).filterMap _

theorem partialCandidates_perm {catalog' : SignatureCatalog}
    (h : catalog'.signatures.Perm catalog.signatures) :
    (partialCandidates catalog' family cues).Perm (partialCandidates catalog family cues) :=
  (h.filter _).filterMap _

/-- A set of texts has one order, so the order in which they were gathered is gone after sorting.
-/
theorem orderedTexts_perm {texts texts' : List String} (h : texts'.Perm texts) :
    orderedTexts texts' = orderedTexts texts := by
  rw [orderedTexts, orderedTexts, List.toFinset_eq_of_perm _ _ h]

theorem noMatch_perm {catalog' : SignatureCatalog}
    (h : catalog'.signatures.Perm catalog.signatures) :
    noMatch catalog' family cues = noMatch catalog family cues := by
  have hnone : (catalog'.signatures.filter fun sig => sig.appliesTo family) = [] ↔
      (catalog.signatures.filter fun sig => sig.appliesTo family) = [] := by
    rw [← List.length_eq_zero_iff, ← List.length_eq_zero_iff, (h.filter _).length_eq]
  simp only [noMatch, hnone, h.mem_iff]

theorem matchSignatures_perm {catalog' : SignatureCatalog}
    (h : catalog'.signatures.Perm catalog.signatures) :
    (matchSignatures catalog' family cues).SameAs (matchSignatures catalog family cues) := by
  have hfull := @fullCandidates_perm catalog family cues catalog' h
  have hpartly := @partialCandidates_perm catalog family cues catalog' h
  rw [matchSignatures_eq, matchSignatures_eq, hfull.length_eq, hpartly.length_eq,
    noMatch_perm h]
  split
  · exact hfull.append hpartly
  · split
    · exact ⟨hfull, orderedTexts_perm (hfull.flatMap_right _)⟩
    · split
      · exact hpartly
      · split
        · exact ⟨hpartly, orderedTexts_perm
            ((hpartly.flatMap_right _).append (hpartly.flatMap_right _))⟩
        · rfl

/-- **Matching a catalog.**  Every candidate is of a signature that can match; every signature
that matches in full has its candidate; the outcome is ambiguous exactly when the best tier has
two members or more; times that are not trusted give leading indicators only; and the order of the
catalog is the order of the candidates and nothing else. -/
theorem matchSignatures_sound (catalog : SignatureCatalog) (family : Family) (cues : CueSet) :
    (∀ c ∈ (matchSignatures catalog family cues).candidates, ∃ sig ∈ catalog.signatures,
      Eligible family cues sig ∧ candidateOf cues sig = some c ∧
        c.signatureId = sig.signatureId) ∧
    (∀ sig ∈ catalog.signatures, Eligible family cues sig → AllPresent cues sig →
      ∃ c ∈ (matchSignatures catalog family cues).candidates, candidateOf cues sig = some c ∧
        c.signatureId = sig.signatureId) ∧
    ((∃ candidates by_, matchSignatures catalog family cues = .ambiguous candidates by_) ↔
      2 ≤ (bestTier catalog family cues).length) ∧
    (cues.timeUntrusted = true → ∀ c ∈ (matchSignatures catalog family cues).candidates,
      c.logicConfidence = .leadingIndicator) ∧
    ∀ catalog' : SignatureCatalog, catalog'.signatures.Perm catalog.signatures →
      (matchSignatures catalog' family cues).SameAs (matchSignatures catalog family cues) := by
  refine ⟨?_, ?_, ambiguous_iff, ?_, fun catalog' h => matchSignatures_perm h⟩
  · intro c hc
    obtain ⟨sig, hmem, heligible, hcandidate⟩ := signature_of_candidate hc
    exact ⟨sig, hmem, heligible, hcandidate, (of_candidateOf_eq_some hcandidate).1⟩
  · intro sig hmem heligible hfull
    obtain ⟨c, hcandidate⟩ := Option.isSome_iff_exists.mp <| candidateOf_isSome_iff.mpr
      ⟨heligible.2.2.1, heligible.2.2.2, Or.inl hfull⟩
    refine ⟨c, full_subset_candidates ?_, hcandidate, (of_candidateOf_eq_some hcandidate).1⟩
    exact List.mem_filterMap.mpr
      ⟨sig, List.mem_filter.mpr ⟨hmem, decide_eq_true ⟨heligible, hfull⟩⟩, hcandidate⟩
  · intro huntrusted c hc
    obtain ⟨sig, -, -, hcandidate⟩ := signature_of_candidate hc
    rw [(of_candidateOf_eq_some hcandidate).2, logicConfidence_of_untrusted huntrusted]

end Musubi.Reference
