/-
# What a score counts

The verifier reports on a profile through counters, and its verdict asks that some of them are
zero.  Each is turned back into what it counts: bindings, consumed fields, units, expectations.

The oracle says twice what a field is for: its list of bindings says which fields are acceptable
for a role, and the scorer makes of it a table from fields to roles, in which a later role
overwrites an earlier one.  The two agree where no field is acceptable for two roles (`OneRole`),
and the lemmas that go through the table assume it (`classify_eq_match`); those that only count do
not.

A count is clamped to 32 bits, which cannot hide anything where the question is whether it is
zero.  The counters of mismaps and phantoms are zero together when every binding is unreachable or
a match, and it is in this form that the verdict uses them (`faults_eq_zero`).
-/
import Musubi.IntegrationCase.Profile
import Mathlib.Data.List.Sort

namespace Musubi.IntegrationCase

open Lib Musubi.Core Contracts Reference Northbound.WirePolicy

/-! ## 1. Bindings and oracles -/

/-- The profile binds a field to a role.  A profile has one field for the time and lists for the
others, and roles are their names. -/
def Binds (fields : FieldMapping) (role field : String) : Prop :=
  role = "time" ∧ field = fields.time ∨ role = "status" ∧ field ∈ fields.status ∨
    role = "link" ∧ field ∈ fields.link ∨ role = "battery" ∧ field ∈ fields.battery ∨
    role = "gps" ∧ field ∈ fields.gps ∨ role = "health" ∧ field ∈ fields.health

namespace ProfileOracleV1

/-- The oracle accepts a field for a role, in any of its bindings for that role. -/
def Accepts (oracle : ProfileOracleV1) (role field : String) : Prop :=
  ∃ binding ∈ oracle.bindings, binding.role = role ∧ field ∈ binding.acceptableFields

/-- The oracle declares that no sample can show the field. -/
def Unreachable (oracle : ProfileOracleV1) (field : String) : Prop :=
  ∃ binding ∈ oracle.bindings, field ∈ binding.unreachableFields

/-- No field is acceptable for two roles.  An oracle may list one role in several bindings, as
long as the fields are not those of another role. -/
def OneRole (oracle : ProfileOracleV1) : Prop :=
  ∀ field role role', oracle.Accepts role field → oracle.Accepts role' field → role = role'

end ProfileOracleV1

/-! ## 2. Counters -/

/-- A count that was clamped is zero when nothing was counted. -/
theorem ofNatClamp_eq_zero {n : ℕ} : UInt32.ofNatClamp n = 0 ↔ n = 0 := by
  unfold UInt32.ofNatClamp
  split
  · rename_i h
    rw [← UInt32.toNat_inj]
    simp
  · rename_i h
    refine iff_of_false (by decide) ?_
    rintro rfl
    exact h (by decide)

theorem count_eq_zero {α : Type} {p : α → Bool} {l : List α} :
    UInt32.ofNatClamp (l.filter p).length = 0 ↔ ∀ x ∈ l, p x = false := by
  rw [ofNatClamp_eq_zero, List.length_eq_zero_iff, List.filter_eq_nil_iff]
  constructor
  · intro h x hx
    exact Bool.eq_false_iff.mpr (h x hx)
  · intro h x hx
    exact Bool.eq_false_iff.mp (h x hx)

/-- Sets are equal when they share as many elements as there are in either. -/
theorem card_union_sub_inter_eq_zero {α : Type} [DecidableEq α] {A B : Finset α} :
    (A ∪ B).card - (A ∩ B).card = 0 ↔ A = B := by
  have hsub : A ∩ B ⊆ A ∪ B := Finset.inter_subset_union
  constructor
  · intro h
    have heq := Finset.eq_of_subset_of_card_le hsub (Nat.sub_eq_zero_iff_le.mp h)
    exact inf_eq_sup.mp heq
  · rintro rfl
    rw [Finset.union_self, Finset.inter_self, Nat.sub_self]

/-- One item, and it passes. -/
theorem single_iff {α : Type} {l : List α} {p : α → Bool} :
    (decide (l.length = 1) && l.head?.any p) = true ↔ ∃ x, l = [x] ∧ p x = true := by
  rw [Bool.and_eq_true, decide_eq_true_eq, List.length_eq_one_iff]
  constructor
  · rintro ⟨⟨x, rfl⟩, hp⟩
    exact ⟨x, rfl, hp⟩
  · rintro ⟨x, rfl, hp⟩
    exact ⟨⟨x, rfl⟩, hp⟩

/-! ## 3. Bindings -/

section Bindings

variable {profile : FamilyProfile} {headers : Finset String} {oracle : ProfileOracleV1}
  {consumed : Finset String} {role field : String}

theorem mem_unreachableFields : field ∈ unreachableFields oracle ↔ oracle.Unreachable field := by
  unfold unreachableFields ProfileOracleV1.Unreachable
  rw [List.mem_toFinset, List.mem_flatMap]

/-- **The pairs are the bindings of the profile.** The scorer walks roles and fields; what the
profile says of a role is a list, and each of its fields is one pair. -/
theorem mem_candidatePairs :
    (role, field) ∈ candidatePairs profile ↔ Binds profile.fields role field := by
  have hentries (fields : List String) :
      (role, fields) ∈ (candidateBindings profile).entries ↔
        (role, fields) ∈ [("time", [profile.fields.time]), ("status", profile.fields.status),
          ("link", profile.fields.link), ("battery", profile.fields.battery),
          ("gps", profile.fields.gps), ("health", profile.fields.health)] := by
    rw [BTreeMap.mem_entries_iff, candidateBindings, BTreeMap.get?_ofList_of_nodup]
    show ["time", "status", "link", "battery", "gps", "health"].Nodup
    decide +kernel
  have hpair : (role, field) ∈ candidatePairs profile ↔
      ∃ fields, (role, fields) ∈ (candidateBindings profile).entries ∧ field ∈ fields := by
    unfold candidatePairs
    rw [List.mem_flatMap]
    constructor
    · rintro ⟨⟨role', fields⟩, hmem, hpair⟩
      obtain ⟨field', hfield, heq⟩ := List.mem_map.mp hpair
      cases heq
      exact ⟨fields, hmem, hfield⟩
    · rintro ⟨fields, hmem, hfield⟩
      exact ⟨(role, fields), hmem, List.mem_map_of_mem hfield⟩
  rw [hpair]
  simp only [hentries, List.mem_cons, Prod.mk.injEq, List.not_mem_nil, or_false, or_and_right,
    and_assoc, exists_or, exists_and_left, exists_eq_left]
  rfl

/-- A field that is expected in a role is accepted for it, and conversely if each field is
accepted for one role. -/
theorem expectedByField_get? (honeRole : oracle.OneRole) :
    (expectedByField oracle).get? field = some role ↔ oracle.Accepts role field := by
  have hpairs {role field : String} :
      (field, role) ∈ (oracle.bindings.flatMap fun binding =>
        binding.acceptableFields.map fun field => (field, binding.role)) ↔
        oracle.Accepts role field := by
    rw [List.mem_flatMap]
    constructor
    · rintro ⟨binding, hbinding, hmem⟩
      obtain ⟨field', hfield, heq⟩ := List.mem_map.mp hmem
      cases heq
      exact ⟨binding, hbinding, rfl, hfield⟩
    · rintro ⟨binding, hbinding, rfl, hfield⟩
      exact ⟨binding, hbinding, List.mem_map_of_mem hfield⟩
  rw [expectedByField, BTreeMap.get?_ofList, hpairs]
  rintro ⟨field, role⟩ hp ⟨field', role'⟩ hq heq
  cases heq
  exact honeRole field role role' (hpairs.mp hp) (hpairs.mp hq)

/-- **A match** is a field of the sample that the oracle accepts for the role.  Where a field is
acceptable for two roles the table knows one of them only, and the class of the other would be a
mismap. -/
theorem classify_eq_match (honeRole : oracle.OneRole) :
    classify headers oracle role field = .match_ ↔
      ¬ oracle.Unreachable field ∧ field ∈ headers ∧ oracle.Accepts role field := by
  rw [← mem_unreachableFields, ← expectedByField_get? honeRole]
  unfold classify
  split
  · rename_i h
    exact iff_of_false (nomatch ·) fun hmatch => hmatch.1 h
  · rename_i hreachable
    split
    · rename_i h
      exact iff_of_false (nomatch ·) fun hmatch => h hmatch.2.1
    · rename_i hheader
      split
      · rename_i h
        exact iff_of_true rfl ⟨hreachable, not_not.mp hheader, h⟩
      · rename_i h
        refine iff_of_false ?_ fun hmatch => h hmatch.2.2
        split
        · exact (nomatch ·)
        · exact (nomatch ·)

/-- **No fault in a binding**: it is unreachable, or it matches.  The four classes exclude one
another, and this is the half of them that does not count against a profile. -/
theorem classify_faultless :
    classify headers oracle role field ≠ .misMap ∧ classify headers oracle role field ≠ .phantom ↔
      oracle.Unreachable field ∨ classify headers oracle role field = .match_ := by
  rw [← mem_unreachableFields]
  unfold classify
  split
  · rename_i h
    exact iff_of_true ⟨(nomatch ·), (nomatch ·)⟩ (Or.inl h)
  · rename_i hreachable
    split
    · refine iff_of_false (fun h => h.2 rfl) ?_
      rintro (h | h)
      · exact hreachable h
      · cases h
    · split
      · exact iff_of_true ⟨(nomatch ·), (nomatch ·)⟩ (Or.inr rfl)
      · split
        · refine iff_of_false (fun h => h.1 rfl) ?_
          rintro (h | h)
          · exact hreachable h
          · cases h
        · refine iff_of_false (fun h => h.2 rfl) ?_
          rintro (h | h)
          · exact hreachable h
          · cases h

/-- A binding of the candidate is not counted as a miss. -/
theorem classify_ne_miss : classify headers oracle role field ≠ .miss := by
  unfold classify
  split_ifs
  all_goals exact (nomatch ·)

theorem mem_matchedExpected : (role, field) ∈ matchedExpected profile headers oracle ↔
    Binds profile.fields role field ∧ classify headers oracle role field = .match_ := by
  unfold matchedExpected
  rw [List.mem_toFinset, List.mem_filter, mem_candidatePairs, decide_eq_true_eq]

/-- A binding of the oracle is not missed when it is optional or one of its fields matches. -/
theorem requiredMiss_eq_none {matches_ : Finset (String × String)}
    {binding : RoleBindingOracleV1} : requiredMiss matches_ binding = none ↔
      (binding.required = true →
        ∃ field ∈ binding.acceptableFields, (binding.role, field) ∈ matches_) := by
  unfold requiredMiss
  split
  · rename_i h
    refine iff_of_true rfl fun hrequired => ?_
    rw [hrequired] at h
    cases h
  · rename_i hrequired
    split
    · rename_i h
      obtain ⟨field, hfield, hmatch⟩ := List.any_eq_true.mp h
      exact iff_of_true rfl fun _ => ⟨field, hfield, of_decide_eq_true hmatch⟩
    · rename_i h
      refine iff_of_false (nomatch ·) fun hmatch => h ?_
      have hreq : binding.required = true := by simpa using hrequired
      obtain ⟨field, hfield, hmem⟩ := hmatch hreq
      exact List.any_eq_true.mpr ⟨field, hfield, decide_eq_true hmem⟩

theorem class_of_requiredMiss {matches_ : Finset (String × String)}
    {binding : RoleBindingOracleV1} {result : BindingResultV1}
    (h : requiredMiss matches_ binding = some result) :
    result.class_ = .miss := by
  unfold requiredMiss at h
  split at h
  · cases h
  · split at h
    · cases h
    · cases h
      rfl

/-! ## 4. Results -/

/-- The result of a binding of the candidate. -/
def resultOf (headers : Finset String) (oracle : ProfileOracleV1) (consumed : Finset String)
    (role field : String) : BindingResultV1 :=
  ⟨role, field, classify headers oracle role field, field ∈ consumed⟩

/-- **The results** are those of the bindings and those of the misses.  Sorting them by role and
field moves them and drops none, so a property that is asked of all of them can be asked of the
two kinds apart. -/
theorem forall_bindingResults {P : BindingResultV1 → Prop} :
    (∀ result ∈ bindingResults profile headers oracle consumed, P result) ↔
      (∀ role field, Binds profile.fields role field →
        P (resultOf headers oracle consumed role field)) ∧
      ∀ binding ∈ oracle.bindings, ∀ result,
        requiredMiss (matchedExpected profile headers oracle) binding = some result → P result := by
  unfold bindingResults
  simp only [List.mem_insertionSort, List.mem_append, or_imp, forall_and, List.mem_map,
    List.mem_filterMap, Prod.exists, mem_candidatePairs, resultOf]
  constructor
  · rintro ⟨hbound, hmissed⟩
    constructor
    · intro role field hbinds
      exact hbound _ ⟨role, field, hbinds, rfl⟩
    · intro binding hbinding result hresult
      exact hmissed result ⟨binding, hbinding, hresult⟩
  · rintro ⟨hbound, hmissed⟩
    constructor
    · rintro result ⟨role, field, hbinds, rfl⟩
      exact hbound role field hbinds
    · rintro result ⟨binding, hbinding, hresult⟩
      exact hmissed binding hbinding result hresult

/-- Faults other than misses are those of the bindings. -/
theorem count_class_eq_zero {c : BindingClass} (hc : c ≠ .miss) :
    UInt32.ofNatClamp ((bindingResults profile headers oracle consumed).filter
        fun result => result.class_ = c).length = 0 ↔
      ∀ role field, Binds profile.fields role field → classify headers oracle role field ≠ c := by
  rw [count_eq_zero, forall_bindingResults]
  constructor
  · rintro ⟨hbound, -⟩ role field hbinds
    exact of_decide_eq_false (hbound role field hbinds)
  · intro hbound
    constructor
    · intro role field hbinds
      exact decide_eq_false (hbound role field hbinds)
    · intro binding _ result hresult
      rw [class_of_requiredMiss hresult]
      exact decide_eq_false hc.symm

variable {n : UInt32}

/-- **No misses**: each required role has a match.  A role that is not required may be left out.
-/
theorem missed_eq_zero : (scoreProfile profile headers oracle n consumed).missed = 0 ↔
    ∀ binding ∈ oracle.bindings, binding.required = true →
      ∃ field ∈ binding.acceptableFields, Binds profile.fields binding.role field ∧
        classify headers oracle binding.role field = .match_ := by
  unfold scoreProfile
  rw [count_eq_zero, forall_bindingResults]
  simp only [← mem_matchedExpected, ← requiredMiss_eq_none]
  constructor
  · rintro ⟨-, hmissed⟩ binding hbinding
    cases hresult : requiredMiss (matchedExpected profile headers oracle) binding with
    | none => rfl
    | some result =>
      have hclass := of_decide_eq_false (hmissed binding hbinding result hresult)
      exact absurd (class_of_requiredMiss hresult) hclass
  · intro hnone
    constructor
    · intro role field _
      exact decide_eq_false classify_ne_miss
    · intro binding hbinding result hresult
      rw [hnone binding hbinding] at hresult
      cases hresult

/-- **No mismaps and no phantoms**: each binding is unreachable or a match. -/
theorem faults_eq_zero : (scoreProfile profile headers oracle n consumed).misMapped = 0 ∧
      (scoreProfile profile headers oracle n consumed).phantom = 0 ↔
    ∀ role field, Binds profile.fields role field →
      oracle.Unreachable field ∨ classify headers oracle role field = .match_ := by
  unfold scoreProfile
  rw [count_class_eq_zero (by decide), count_class_eq_zero (by decide)]
  simp only [← classify_faultless, forall_and]

/-- **Nothing inert**: each binding is consumed, which is to say that the reader's observations
have the field, or that a handset profile reads its time from it. -/
theorem inert_eq_zero : (scoreProfile profile headers oracle n consumed).inert = 0 ↔
    ∀ role field, Binds profile.fields role field → field ∈ consumed := by
  unfold scoreProfile
  rw [count_eq_zero, forall_bindingResults]
  constructor
  · rintro ⟨hbound, -⟩ role field hbinds
    have hinert := hbound role field hbinds
    simpa [resultOf, classify_ne_miss] using hinert
  · intro hconsumed
    constructor
    · intro role field hbinds
      simp [resultOf, hconsumed role field hbinds]
    · intro binding _ result hresult
      simp [class_of_requiredMiss hresult]

theorem unitMismatched_eq_zero :
    (scoreProfile profile headers oracle n consumed).unitMismatched = 0 ↔
      profile.fieldUnits = oracle.fieldUnits := by
  unfold scoreProfile
  rw [ofNatClamp_eq_zero, BTreeMap.card_keys_sub_agreeing_eq_zero]
  exact eq_comm

theorem cadenceMismatched_eq_zero :
    (scoreProfile profile headers oracle n consumed).cadenceMismatched = 0 ↔
      actualCadence profile = expectedCadence oracle := by
  unfold scoreProfile
  rw [ofNatClamp_eq_zero, card_union_sub_inter_eq_zero]
  exact eq_comm

end Bindings

end Musubi.IntegrationCase
