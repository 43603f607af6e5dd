/-
# Fields that are acceptable for two roles

An oracle lists the acceptable fields role by role, and the validator lets a field stand under
several roles.  `score_profile` looks a field up in one map from fields to roles, which keeps the
role that is listed last.  A binding to another role that accepts the field is then a mismap, and
the score depends on the order of the list; without such bindings neither happens.

What is asked of a score is stated in two parts.  `MatchesOwnRole` says that a binding is a match
when its role accepts its field; `OrderFree` says that the oracle may list its roles in any order.
`NoRivalRole` is the condition on the inputs that gives both, and each of them fails without it: a
field that is bound to one role and accepted by two is classed by the one that happens to be
listed last (`expected_of_last`), so moving the other to the end changes its class.

Only fields that the sample has and that the profile reaches are looked up, so a field that nobody
binds may be acceptable for as many roles as one likes.  The proof that the order is free goes
through the sorted lists of the score: the bindings are classed one by one, and classes and their
lists depend on the map alone, which for the fields that matter is the same for every order.
-/
import Musubi.IntegrationCase.Verdict

namespace Musubi.IntegrationCase

open Lib Musubi.Core Contracts Reference Northbound.WirePolicy

/-! ## 1. What is asked of a score -/

section Score

variable (profile : FamilyProfile) (headers : Finset String) (oracle : ProfileOracleV1)

/-- A reachable field of the sample that is bound to a role that accepts it is a match. -/
def MatchesOwnRole : Prop :=
  ∀ role field, Binds profile.fields role field → field ∈ headers → ¬ oracle.Unreachable field →
    oracle.Accepts role field → classify headers oracle role field = .match_

/-- The score is the same for the bindings of the oracle in any order.  The oracle is a list in a
file, and nothing in its contract gives a meaning to the order. -/
def OrderFree (consumed : Finset String) : Prop :=
  ∀ bindings, bindings.Perm oracle.bindings → ∀ n,
    scoreProfile profile headers { oracle with bindings } n consumed =
      scoreProfile profile headers oracle n consumed

/-- **No rival role**: a reachable field of the sample that is bound to a role that accepts it is
not acceptable for another role too. -/
def NoRivalRole : Prop :=
  ∀ role field, Binds profile.fields role field → field ∈ headers → ¬ oracle.Unreachable field →
    oracle.Accepts role field → ∀ role', oracle.Accepts role' field → role' = role

/-! ## 2. The map of the oracle -/

variable {profile headers oracle} {bindings : List RoleBindingOracleV1} {role field : String}

/-- Fields and roles as the oracle pairs them. -/
def acceptedPairs (bindings : List RoleBindingOracleV1) : List (String × String) :=
  bindings.flatMap fun binding => binding.acceptableFields.map fun field => (field, binding.role)

theorem mem_acceptedPairs :
    (field, role) ∈ acceptedPairs oracle.bindings ↔ oracle.Accepts role field := by
  unfold acceptedPairs ProfileOracleV1.Accepts
  rw [List.mem_flatMap]
  constructor
  · rintro ⟨binding, hbinding, hmem⟩
    obtain ⟨field', hfield, heq⟩ := List.mem_map.mp hmem
    cases heq
    exact ⟨binding, hbinding, rfl, hfield⟩
  · rintro ⟨binding, hbinding, rfl, hfield⟩
    exact ⟨binding, hbinding, List.mem_map_of_mem hfield⟩

/-- The role that is expected accepts the field, since every pair of the map comes from a binding
of the oracle. -/
theorem accepts_of_expected (h : (expectedByField oracle).get? field = some role) :
    oracle.Accepts role field :=
  mem_acceptedPairs.mp (BTreeMap.mem_of_get?_ofList h)

/-- A field that some role accepts is expected in one, the one that the map was last given. -/
theorem exists_expected (h : oracle.Accepts role field) :
    ∃ role', (expectedByField oracle).get? field = some role' ∧ oracle.Accepts role' field := by
  obtain ⟨role', hrole'⟩ :=
    Option.isSome_iff_exists.mp (BTreeMap.get?_ofList_isSome (mem_acceptedPairs.mpr h))
  exact ⟨role', hrole', accepts_of_expected hrole'⟩

/-- **The binding that is listed last counts.** -/
theorem expected_of_last {binding : RoleBindingOracleV1} (h : field ∈ binding.acceptableFields) :
    (expectedByField { oracle with bindings := bindings ++ [binding] }).get? field =
      some binding.role := by
  have hlast : (BTreeMap.ofList (acceptedPairs [binding])).get? field = some binding.role := by
    have hpair : (field, binding.role) ∈ acceptedPairs [binding] :=
      List.mem_flatMap.mpr ⟨binding, List.mem_singleton_self _, List.mem_map_of_mem h⟩
    obtain ⟨role, hrole⟩ := Option.isSome_iff_exists.mp (BTreeMap.get?_ofList_isSome hpair)
    obtain ⟨binding', hbinding', hmem⟩ := List.mem_flatMap.mp (BTreeMap.mem_of_get?_ofList hrole)
    obtain ⟨field', -, heq⟩ := List.mem_map.mp hmem
    cases heq
    rw [hrole, List.mem_singleton.mp hbinding']
  have happend : acceptedPairs (bindings ++ [binding]) =
      acceptedPairs bindings ++ acceptedPairs [binding] :=
    List.flatMap_append
  show (BTreeMap.ofList (acceptedPairs (bindings ++ [binding]))).get? field = _
  rw [happend, BTreeMap.get?_ofList_append, hlast, Option.some_or]

/-! ## 3. The order of the bindings -/

theorem accepts_perm (h : bindings.Perm oracle.bindings) :
    ProfileOracleV1.Accepts { oracle with bindings } role field ↔ oracle.Accepts role field :=
  exists_congr fun _ => and_congr_left fun _ => h.mem_iff

theorem unreachableFields_perm (h : bindings.Perm oracle.bindings) :
    unreachableFields { oracle with bindings } = unreachableFields oracle :=
  List.toFinset_eq_of_perm _ _ (h.flatMap_right _)

/-- The class of a binding where the field has no rival role. -/
theorem classify_of_no_rival (hfield : field ∈ headers) (hreachable : ¬ oracle.Unreachable field)
    (hrival : oracle.Accepts role field → ∀ role', oracle.Accepts role' field → role' = role) :
    (classify headers oracle role field = .match_ ↔ oracle.Accepts role field) ∧
    (classify headers oracle role field = .misMap ↔
      ¬ oracle.Accepts role field ∧ ∃ role', oracle.Accepts role' field) ∧
    (classify headers oracle role field = .phantom ↔ ¬ ∃ role', oracle.Accepts role' field) := by
  have hexpected : (expectedByField oracle).get? field = some role ↔ oracle.Accepts role field := by
    refine ⟨accepts_of_expected, fun haccepts => ?_⟩
    obtain ⟨role', hrole', haccepts'⟩ := exists_expected haccepts
    rw [hrole', hrival haccepts role' haccepts']
  have hsome : ((expectedByField oracle).get? field).isSome = true ↔
      ∃ role', oracle.Accepts role' field := by
    constructor
    · intro h
      obtain ⟨role', hrole'⟩ := Option.isSome_iff_exists.mp h
      exact ⟨role', accepts_of_expected hrole'⟩
    · rintro ⟨role', haccepts⟩
      obtain ⟨role'', hrole'', -⟩ := exists_expected haccepts
      rw [hrole'']
      rfl
  rw [← mem_unreachableFields] at hreachable
  rw [classify, if_neg hreachable, if_neg (not_not.mpr hfield), ← hexpected, ← hsome]
  split
  · rename_i h
    simp [h]
  · rename_i h
    split
    · rename_i h'
      simp [h, h']
    · rename_i h'
      simp [h, h']

/-- **Without rival roles the class of a binding is free of the order.** -/
theorem classify_perm (hrival : NoRivalRole profile headers oracle)
    (h : bindings.Perm oracle.bindings) (hbinds : Binds profile.fields role field) :
    classify headers { oracle with bindings } role field = classify headers oracle role field := by
  by_cases hreachable : oracle.Unreachable field
  · have hmem := mem_unreachableFields.mpr hreachable
    have hmem' := hmem
    rw [← unreachableFields_perm h] at hmem'
    rw [classify, classify, if_pos hmem, if_pos hmem']
  by_cases hfield : field ∈ headers
  · have hreachable' : ¬ ProfileOracleV1.Unreachable { oracle with bindings } field := by
      rw [← mem_unreachableFields, unreachableFields_perm h, mem_unreachableFields]
      exact hreachable
    obtain ⟨hmatch, hmisMap, hphantom⟩ := classify_of_no_rival hfield hreachable
      (hrival role field hbinds hfield hreachable)
    obtain ⟨hmatch', hmisMap', hphantom'⟩ := @classify_of_no_rival headers { oracle with bindings }
      role field hfield hreachable' fun haccepts role' h' =>
        hrival role field hbinds hfield hreachable ((accepts_perm h).mp haccepts) role'
          ((accepts_perm h).mp h')
    simp only [accepts_perm h] at hmatch' hmisMap' hphantom'
    by_cases haccepts : oracle.Accepts role field
    · rw [hmatch.mpr haccepts, hmatch'.mpr haccepts]
    · by_cases hsome : ∃ role', oracle.Accepts role' field
      · rw [hmisMap.mpr ⟨haccepts, hsome⟩, hmisMap'.mpr ⟨haccepts, hsome⟩]
      · rw [hphantom.mpr hsome, hphantom'.mpr hsome]
  · have hunreachable : field ∉ unreachableFields oracle :=
      fun hmem => hreachable (mem_unreachableFields.mp hmem)
    have hunreachable' := hunreachable
    rw [← unreachableFields_perm h] at hunreachable'
    rw [classify, classify, if_neg hunreachable, if_neg hunreachable', if_pos hfield, if_pos hfield]

theorem matchedExpected_perm (hrival : NoRivalRole profile headers oracle)
    (h : bindings.Perm oracle.bindings) :
    matchedExpected profile headers { oracle with bindings } =
      matchedExpected profile headers oracle := by
  unfold matchedExpected
  refine congrArg List.toFinset (List.filter_congr fun pair hpair => ?_)
  rw [classify_perm hrival h (mem_candidatePairs.mp hpair)]

/-! ## 4. Sorting -/

instance : Std.Total BindingLE where
  total a b := by
    unfold BindingLE
    rcases lt_trichotomy a.role b.role with hlt | heq | hgt
    · exact Or.inl (Or.inl hlt)
    · rcases le_total a.field b.field with hle | hle
      · exact Or.inl (Or.inr ⟨heq, hle⟩)
      · exact Or.inr (Or.inr ⟨heq.symm, hle⟩)
    · exact Or.inr (Or.inl hgt)

instance : IsTrans BindingResultV1 BindingLE where
  trans a b c hab hbc := by
    unfold BindingLE at *
    rcases hab with hab | ⟨hab, hab'⟩
    · rcases hbc with hbc | ⟨hbc, -⟩
      · exact Or.inl (hab.trans hbc)
      · exact Or.inl (hbc ▸ hab)
    · rcases hbc with hbc | ⟨hbc, hbc'⟩
      · exact Or.inl (hab ▸ hbc)
      · exact Or.inr ⟨hab.trans hbc, hab'.trans hbc'⟩

/-- Sorting is inserting one after the other. -/
theorem insertionSort_append_congr {α : Type} {r : α → α → Prop} [DecidableRel r] {ys ys' : List α}
    (h : ys.insertionSort r = ys'.insertionSort r) (xs : List α) :
    (xs ++ ys).insertionSort r = (xs ++ ys').insertionSort r := by
  unfold List.insertionSort at h ⊢
  rw [List.foldr_append, List.foldr_append, h]

/-- Misses are told apart by their roles, so they have one order. -/
theorem sorted_misses_perm (matches_ : Finset (String × String))
    (h : bindings.Perm oracle.bindings) :
    (bindings.filterMap (requiredMiss matches_)).insertionSort BindingLE =
      (oracle.bindings.filterMap (requiredMiss matches_)).insertionSort BindingLE := by
  have hperm := h.filterMap (requiredMiss matches_)
  refine List.Perm.eq_of_pairwise ?_ (List.pairwise_insertionSort _ _)
    (List.pairwise_insertionSort _ _)
    ((List.perm_insertionSort _ _).trans (hperm.trans (List.perm_insertionSort _ _).symm))
  intro a b ha hb hab hba
  have hmiss {result : BindingResultV1} {bindings : List RoleBindingOracleV1}
      (hresult : result ∈ (bindings.filterMap (requiredMiss matches_)).insertionSort BindingLE) :
      result = ⟨result.role, "<required-binding>", .miss, false⟩ := by
    obtain ⟨binding, -, hbinding⟩ :=
      List.mem_filterMap.mp ((List.perm_insertionSort _ _).mem_iff.mp hresult)
    unfold requiredMiss at hbinding
    split at hbinding
    · cases hbinding
    · split at hbinding
      · cases hbinding
      · cases hbinding
        rfl
  have hrole : a.role = b.role := by
    rcases hab with hab | ⟨hab, -⟩
    · rcases hba with hba | ⟨hba, -⟩
      · exact absurd hba (lt_asymm hab)
      · exact hba.symm
    · exact hab
  rw [hmiss ha, hmiss hb, hrole]

/-- **Without rival roles the score is free of the order.** -/
theorem orderFree_of_no_rival (hrival : NoRivalRole profile headers oracle)
    (consumed : Finset String) : OrderFree profile headers oracle consumed := by
  intro bindings h n
  have hresults : bindingResults profile headers { oracle with bindings } consumed =
      bindingResults profile headers oracle consumed := by
    unfold bindingResults
    have hbound : (candidatePairs profile).map (fun pair => (⟨pair.1, pair.2,
        classify headers { oracle with bindings } pair.1 pair.2, pair.2 ∈ consumed⟩ :
          BindingResultV1)) =
        (candidatePairs profile).map fun pair =>
          ⟨pair.1, pair.2, classify headers oracle pair.1 pair.2, pair.2 ∈ consumed⟩ := by
      refine List.map_congr_left fun pair hpair => ?_
      rw [classify_perm hrival h (mem_candidatePairs.mp hpair)]
    dsimp only
    rw [hbound, matchedExpected_perm hrival h]
    exact insertionSort_append_congr (sorted_misses_perm _ h) _
  unfold scoreProfile
  rw [hresults]
  rfl

/-! ## 5. Rivals -/

theorem scoreProfile_bindings (consumed : Finset String) (n : UInt32) :
    (scoreProfile profile headers oracle n consumed).bindings =
      bindingResults profile headers oracle consumed := by
  rw [scoreProfile]

/-- Each binding of the candidate has its result. -/
theorem resultOf_mem {consumed : Finset String} (hbinds : Binds profile.fields role field) :
    resultOf headers oracle consumed role field ∈
      bindingResults profile headers oracle consumed := by
  have hall := @forall_bindingResults profile headers oracle consumed
    (· ∈ bindingResults profile headers oracle consumed)
  exact (hall.mp fun _ h => h).1 role field hbinds

/-- A binding that matches has no result that is a mismap. -/
theorem forall_mem_bindingResults {consumed : Finset String}
    (hmatch : classify headers oracle role field = .match_) :
    ∀ result ∈ bindingResults profile headers oracle consumed,
      result.role = role → result.field = field → result.class_ ≠ .misMap := by
  refine forall_bindingResults.mpr ⟨?_, ?_⟩
  · rintro _ _ - rfl rfl
    intro hmisMap
    exact absurd (hmatch.symm.trans hmisMap) nofun
  · intro binding _ result hmiss _ _
    rw [class_of_requiredMiss hmiss]
    exact nofun

/-- Where a score is free of the order and bindings match, no bound field has a rival role: the
rival, listed last, would make the binding a mismap. -/
theorem no_rival_of_orderFree {consumed : Finset String}
    (horder : OrderFree profile headers oracle consumed)
    (hmatches : MatchesOwnRole profile headers oracle) : NoRivalRole profile headers oracle := by
  intro role field hbinds hfield hreachable haccepts role' haccepts'
  by_contra hne
  obtain ⟨rival, hrival, rfl, hmem⟩ := haccepts'
  have hperm : (oracle.bindings.erase rival ++ [rival]).Perm oracle.bindings :=
    List.perm_append_singleton _ _ |>.trans (List.perm_cons_erase hrival).symm
  have hmisMap : classify headers { oracle with bindings := oracle.bindings.erase rival ++ [rival] }
      role field = .misMap := by
    have hunreachable : field ∉ unreachableFields
        { oracle with bindings := oracle.bindings.erase rival ++ [rival] } := by
      rw [unreachableFields_perm hperm, mem_unreachableFields]
      exact hreachable
    rw [classify, if_neg hunreachable, if_neg (not_not.mpr hfield), expected_of_last hmem,
      if_neg (fun h => hne (Option.some.inj h)), Option.isSome_some, if_pos rfl]
  -- the mismap of the one score is a result of the other
  have hresults := congrArg ProfileScoreV1.bindings (horder _ hperm 0)
  rw [scoreProfile_bindings, scoreProfile_bindings] at hresults
  have hresult := @resultOf_mem profile headers
    { oracle with bindings := oracle.bindings.erase rival ++ [rival] } role field consumed hbinds
  rw [hresults, resultOf, hmisMap] at hresult
  exact forall_mem_bindingResults (hmatches role field hbinds hfield hreachable haccepts) _ hresult
    rfl rfl rfl

end Score

/-- **When a score is fair.** The score does not depend on the order of the bindings of the oracle
and every reachable field of the sample that is bound to a role that accepts it is a match,
exactly if no such field is acceptable for another role too.  No validity of the oracle is
assumed: the validator that the program has lets rivals through. -/
theorem score_fair_iff (profile : FamilyProfile) (headers consumed : Finset String)
    (oracle : ProfileOracleV1) :
    OrderFree profile headers oracle consumed ∧ MatchesOwnRole profile headers oracle ↔
      NoRivalRole profile headers oracle := by
  constructor
  · rintro ⟨horder, hmatches⟩
    exact no_rival_of_orderFree horder hmatches
  · intro hrival
    refine ⟨orderFree_of_no_rival hrival consumed, ?_⟩
    intro role field hbinds hfield hreachable haccepts
    exact (classify_of_no_rival hfield hreachable
      (hrival role field hbinds hfield hreachable)).1.mpr haccepts

namespace Sample

/-- The oracle of the sample, where the link quality is acceptable as health too. -/
def sharedOracle : ProfileOracleV1 :=
  { oracle with bindings := oracle.bindings ++ [⟨"health", ["RQly(%)"], [], false⟩] }

/-- The validator accepts that oracle, and the link of the sample is a mismap. -/
theorem shared_field_mismapped :
    ¬ ∀ (profile : FamilyProfile) (headers consumed : Finset String) (oracle : ProfileOracleV1),
      validateOracle oracle = .ok () →
      OrderFree profile headers oracle consumed ∧ MatchesOwnRole profile headers oracle := by
  intro hclaim
  have hvalid : validateOracle sharedOracle = .ok () := by decide +kernel
  have hmatch := (hclaim profile headers ∅ sharedOracle hvalid).2 "link" "RQly(%)"
  have hbinds : Binds profile.fields "link" "RQly(%)" := by
    simp [Binds, profile]
  have haccepts : sharedOracle.Accepts "link" "RQly(%)" :=
    ⟨⟨"link", ["RQly(%)"], [], true⟩, by decide +kernel, rfl, List.mem_singleton_self _⟩
  have hreachable : ¬ sharedOracle.Unreachable "RQly(%)" := by
    rw [← mem_unreachableFields]
    decide +kernel
  have hclass : classify headers sharedOracle "link" "RQly(%)" = .misMap := by decide +kernel
  rw [hmatch hbinds (by decide +kernel) hreachable haccepts] at hclass
  cases hclass

end Sample

end Musubi.IntegrationCase
