/-
# A batch of senders partitions the recording

Every reading of a batch is a selection of the same plain rows, and distinct senders share none of
them.  So the counts always agree, what the batch infers from them is what it says, and the order
of the profiles is that of the output and no more.

The batch reads the recording once for each profile, and has two refusals in case the readings
disagree: that their totals differ, and that the selected records are more than there are.
Neither can occur.  Each reading counts the same plain rows (`readInternal_selects`), and a row is
reported for the one sender whose ids it has, of which no two profiles declare the same.

The second half is about order.  What a batch returns is determined by the set of its profiles, up
to the order of the senders in the output, so permuting the profiles permutes the senders and
changes nothing else.
-/
import Musubi.Reference.TlogSenderBatch

namespace Musubi.Reference.TlogSenderBatch

open Lib Lib.Checked Musubi.Core Tlog

/-! ## 1. The whole batch -/

section Batch

variable {sha256 : List UInt8 → Digest} {profiles : List FamilyProfile} {input : Slice}
  {limits : Limits} {all : List Observation}

/-- A batch that comes to an end, with the plain rows of the recording.  All profiles share them,
since they differ in the sender and in nothing that the reader uses. -/
structure Succeeds (sha256 : List UInt8 → Digest) (profiles : List FamilyProfile) (input : Slice)
    (limits : Limits) (all : List Observation) : Prop where
  bounds : WithinBounds profiles input limits
  declares : ∀ p ∈ profiles, Declares p
  nodup : (profiles.map senderOf).Nodup
  plain : ∀ p ∈ profiles, Tlog.read sha256 (unselected p) input = .ok all
  readable : ∀ p ∈ profiles, Readable (senderOf p) all
  selected_le : selectedOf all profiles ≤ limits.observations.toNat

/-- The rows of distinct senders are among the rows, and no row is of two senders; so the counts
of the senders add up to that of the rows that report one of them. -/
theorem selectedOf_eq (hnodup : (profiles.map senderOf).Nodup) (all : List Observation) :
    selectedOf all profiles =
      all.countP fun o => ∃ want ∈ profiles.map senderOf, ReportsSender want o := by
  rw [← sum_length_chosen hnodup, selectedOf, List.map_map]
  rfl

theorem selectedOf_le (hnodup : (profiles.map senderOf).Nodup) (all : List Observation) :
    selectedOf all profiles ≤ all.length := by
  rw [selectedOf_eq hnodup]
  exact List.countP_le_length

/-- Where the recording can be read at all, all profiles read the same rows. -/
theorem plain_of_head {profile : FamilyProfile} (hprofiles : ∀ p ∈ profile :: profiles, Declares p)
    (hall : Tlog.read sha256 (unselected profile) input = .ok all) :
    ∀ p ∈ profile :: profiles, Tlog.read sha256 (unselected p) input = .ok all := by
  intro p hp
  exact (read_unselected_congr (hprofiles p hp) (hprofiles profile List.mem_cons_self)).mpr hall

/-- **A batch returns exactly when it succeeds**, and what it returns is determined.  `Succeeds`
lists the bounds, the profiles and the plain rows. -/
theorem readWithLimits_eq_ok {result : BatchOutput} :
    readWithLimits sha256 profiles input limits = .ok result ↔
      ∃ all, Succeeds sha256 profiles input limits all ∧
        result = { resultOf sha256 input all profiles with
          unselectedRecords := all.length - selectedOf all profiles } := by
  have hstart (all : List Observation) : resultOf sha256 input all [] =
      ⟨hexLower (sha256 input.bytes).toList, 0, 0, 0, []⟩ := rfl
  unfold readWithLimits
  split
  · next hbounds => exact iff_of_false (fun h => by cases h) (fun ⟨_, h, _⟩ => hbounds h.bounds)
  next hbounds =>
  rw [not_not] at hbounds
  obtain ⟨profile, rest, rfl⟩ := List.exists_cons_of_ne_nil hbounds.1
  constructor
  · intro h
    obtain ⟨tuples, htuples, h⟩ := bind_eq_ok.mp h
    obtain ⟨folded, hfold, h⟩ := bind_eq_ok.mp h
    obtain ⟨hprofiles, hnodup, -⟩ := foldlM_checkProfile.mp ⟨tuples, htuples⟩
    -- the first sender has been read, so the recording can be
    have hhead : ∃ all, Tlog.read sha256 (unselected profile) input = .ok all := by
      rw [List.foldlM_cons] at hfold
      obtain ⟨after, hafter, -⟩ := bind_eq_ok.mp hfold
      by_contra hnone
      refine not_readSender (hprofiles profile List.mem_cons_self) (fun all hall => ?_) _ _ hafter
      exact absurd ⟨all, hall⟩ hnone
    obtain ⟨all, hall⟩ := hhead
    have hplain := plain_of_head hprofiles hall
    rw [← hstart all] at hfold
    obtain ⟨hread, hle, rfl⟩ := (foldlM_readSender hprofiles hplain (Nat.zero_le _)).mp hfold
    refine ⟨all, ⟨hbounds, hprofiles, hnodup, hplain, hread, hle⟩, ?_⟩
    split at h
    · cases h
    · cases h
      rfl
  · rintro ⟨all, hall, rfl⟩
    obtain ⟨tuples, htuples⟩ := foldlM_checkProfile.mpr
      ⟨hall.declares, hall.nodup, fun p _ => List.not_mem_nil⟩
    have hzero : selectedOf all [] ≤ limits.observations.toNat := Nat.zero_le _
    have hfold := (foldlM_readSender hall.declares hall.plain hzero).mpr
      ⟨hall.readable, hall.selected_le, rfl⟩
    rw [hstart] at hfold
    have hle : ¬ (resultOf sha256 input all (profile :: rest)).totalRecords <
        (resultOf sha256 input all (profile :: rest)).selectedRecords :=
      not_lt.mpr (selectedOf_le hall.nodup all)
    rw [htuples, ok_bind, hfold, ok_bind, List.nil_append, if_neg hle]
    rfl

/-- The order of the profiles does not matter: each condition is about the set of them or about
sums over it. -/
theorem Succeeds.perm {others : List FamilyProfile} (hperm : profiles.Perm others)
    (h : Succeeds sha256 profiles input limits all) :
    Succeeds sha256 others input limits all where
  bounds := by
    have hnil : others ≠ [] := fun hnil => h.bounds.1 (by rwa [hnil, List.perm_nil] at hperm)
    have hbounds := h.bounds
    unfold WithinBounds at hbounds ⊢
    rw [hperm.length_eq] at hbounds
    exact ⟨hnil, hbounds.2⟩
  declares p hp := h.declares p (hperm.mem_iff.mpr hp)
  nodup := (hperm.map senderOf).nodup_iff.mp h.nodup
  plain p hp := h.plain p (hperm.mem_iff.mpr hp)
  readable p hp := h.readable p (hperm.mem_iff.mpr hp)
  selected_le := by
    have hsum : selectedOf all others = selectedOf all profiles :=
      ((hperm.map (recordsOf all)).sum_eq).symm
    rw [hsum]
    exact h.selected_le

/-! ## 2. What cannot be refused -/

/-- Not one of the two refusals that say that the counts do not add up. -/
def NotAccounting (e : ReadError) : Prop :=
  e ≠ .profile "inconsistent sender accounting" ∧ e ≠ .profile "overlapping sender accounting"

theorem notAccounting_selected (rest : String) :
    NotAccounting (.profile ("selected sender " ++ rest)) := by
  constructor <;> intro h <;>
    exact absurd (congrArg String.toList (ReadError.profile.inj h)) (by simp)

theorem notAccounting_malformed (m : Malformed) : NotAccounting m.error := by
  constructor <;> intro h <;> cases h

theorem ends_read (sha256 : List UInt8 → Digest) (input : Slice) (profile : FamilyProfile) :
    Ends (Tlog.read sha256 profile input) (fun _ => True) NotAccounting := by
  unfold Tlog.read readInternal
  refine Ends.guard ⟨by simp, by simp⟩ fun _ => ?_
  have hscan := Scanner.safe_scan ((keeps_records profile).feed
    (safe_emit sha256 profile false))
    (s := (fun _ => none, ⟨[], 0⟩)) trivial (Nat.zero_le input.bytes.length)
  refine (ends_mapErr hscan notAccounting_malformed).bind ?_
  rintro ⟨_, _, e⟩ -
  simp only [finish]
  split
  · exact ends_pure trivial
  · split
    · refine ends_fail ?_
      simp only [String.append_assoc]
      exact notAccounting_selected _
    · exact ends_pure trivial

theorem ends_checkProfile (tuples : List (UInt8 × UInt8)) (profile : FamilyProfile) :
    Ends (checkProfile tuples profile) (fun _ => True) NotAccounting := by
  unfold checkProfile
  split
  · exact ends_fail ⟨by simp, by simp⟩
  · exact Ends.guard ⟨by simp, by simp⟩ fun _ => ends_pure trivial

/-- **A sender after others is never inconsistent with them.** Any other refusal is possible. -/
theorem ends_readSender {profile : FamilyProfile} (hprofile : Declares profile)
    (hall : Tlog.read sha256 (unselected profile) input = .ok all) (done : List FamilyProfile) :
    Ends (readSender sha256 input limits (resultOf sha256 input all done) profile)
      (fun result => ∃ done, result = resultOf sha256 input all done) NotAccounting := by
  by_cases hread : Readable (senderOf profile) all
  · rw [readSender_eq hprofile hall hread]
    split
    · exact ends_ok ⟨_, rfl⟩
    · exact ends_fail ⟨by simp, by simp⟩
  · rcases (ends_read sha256 input profile).cases with
      ⟨e, he, hnot⟩ | ⟨obs, hobs, -⟩
    · unfold readSender
      rw [he]
      exact hnot
    · obtain ⟨all', hall', hread', -⟩ := (read_eq_ok hprofile).mp hobs
      rw [Except.ok.inj (hall'.symm.trans hall)] at hread'
      exact absurd hread' hread

theorem ends_readWithLimits (sha256 : List UInt8 → Digest) (profiles : List FamilyProfile)
    (input : Slice) (limits : Limits) :
    Ends (readWithLimits sha256 profiles input limits) (fun _ => True) NotAccounting := by
  unfold readWithLimits
  refine Ends.guard ⟨by simp, by simp⟩ fun hbounds => ?_
  rw [not_not] at hbounds
  obtain ⟨profile, rest, rfl⟩ := List.exists_cons_of_ne_nil hbounds.1
  have hcheck := ends_foldlM (E := NotAccounting) (I := fun _ => True) (profile :: rest) trivial
    (b := []) fun tuples p _ _ => ends_checkProfile tuples p
  rcases hcheck.cases with ⟨e, he, hnot⟩ | ⟨tuples, htuples, -⟩
  · rw [he]
    exact hnot
  obtain ⟨hprofiles, hnodup, -⟩ := foldlM_checkProfile.mp ⟨tuples, htuples⟩
  rw [htuples, ok_bind]
  rcases (ends_read sha256 input (unselected profile)).cases with
    ⟨e, he, hnot⟩ | ⟨all, hall, -⟩
  · -- the first sender cannot be read either
    rcases (ends_read sha256 input profile).cases with
      ⟨e', he', hnot'⟩ | ⟨obs, hobs, -⟩
    · rw [List.foldlM_cons, readSender, he']
      exact hnot'
    · obtain ⟨all, hall, -⟩ := (read_eq_ok (hprofiles profile List.mem_cons_self)).mp hobs
      rw [he] at hall
      cases hall
  have hplain := plain_of_head hprofiles hall
  have hfold := ends_foldlM (E := NotAccounting)
    (I := fun result => ∃ done, result = resultOf sha256 input all done)
    (f := readSender sha256 input limits) (profile :: rest)
    (b := resultOf sha256 input all []) ⟨[], rfl⟩ (by
      rintro _ p hp ⟨done, rfl⟩
      exact ends_readSender (hprofiles p hp) (hplain p hp) done)
  rcases hfold.cases with ⟨e, he, hnot⟩ | ⟨result, hresult, -⟩
  · rw [show (⟨hexLower (sha256 input.bytes).toList, 0, 0, 0, []⟩ : BatchOutput) =
      resultOf sha256 input all [] from rfl, he]
    exact hnot
  · obtain ⟨-, -, rfl⟩ := (foldlM_readSender hprofiles hplain (Nat.zero_le _)).mp hresult
    have hle : ¬ (resultOf sha256 input all ([] ++ profile :: rest)).totalRecords <
        (resultOf sha256 input all ([] ++ profile :: rest)).selectedRecords :=
      not_lt.mpr (selectedOf_le hnodup all)
    rw [show (⟨hexLower (sha256 input.bytes).toList, 0, 0, 0, []⟩ : BatchOutput) =
      resultOf sha256 input all [] from rfl, hresult, ok_bind, if_neg hle]
    exact ends_pure trivial

end Batch

/-! ## 3. The partition -/

section Main

variable (sha256 : List UInt8 → Digest) (profiles : List FamilyProfile) (input : Slice)
  (limits : Limits)

/-- The row reports the sender that a profile declares. -/
def Reports (profile : FamilyProfile) (o : Observation) : Prop :=
  profile.declaredSender.any (ReportsSender · o) = true

instance (profile : FamilyProfile) : DecidablePred (Reports profile) :=
  fun _ => inferInstanceAs (Decidable (_ = true))

/-- A result divides the rows of the recording among the senders: each has the selection of its
own, no row is reported by two, and what is left over is what none of them reports. -/
structure Partitions (sha256 : List UInt8 → Digest) (profiles : List FamilyProfile)
    (input : Slice) (result : BatchOutput) (all : List Observation) : Prop where
  plain : ∀ p ∈ profiles, Tlog.read sha256 (unselected p) input = .ok all
  /-- The rows of each sender are the selection of the plain ones. -/
  senders : List.Forall₂ (fun p s => s.profile = p ∧
      ∃ want, p.declaredSender = some want ∧ s.observations = selection sha256 want all ∧
        s.selectedRecords = s.observations.length ∧
        s.selectedRecords + s.unselectedRecords = all.length)
    profiles result.senders
  disjoint : profiles.Pairwise fun p q => ∀ o ∈ all, ¬ (Reports p o ∧ Reports q o)
  total : result.totalRecords = all.length
  /-- What is left are the rows that report none of the senders. -/
  left : result.unselectedRecords = all.countP fun o => ∀ p ∈ profiles, ¬ Reports p o

theorem reports_iff {profile : FamilyProfile} (h : Declares profile) (o : Observation) :
    Reports profile o ↔ ReportsSender (senderOf profile) o := by
  rw [Reports, h.sender]
  simp

theorem partitions {all : List Observation} (h : Succeeds sha256 profiles input limits all) :
    Partitions sha256 profiles input { resultOf sha256 input all profiles with
      unselectedRecords := all.length - selectedOf all profiles } all where
  plain := h.plain
  senders := by
    refine List.forall₂_map_right_iff.mpr (List.forall₂_same.mpr fun p hp => ?_)
    refine ⟨rfl, senderOf p, (h.declares p hp).sender, rfl, (length_selection all).symm, ?_⟩
    exact Nat.add_sub_cancel' (List.length_filter_le _ _)
  disjoint := by
    refine (List.pairwise_map.mp h.nodup).imp_of_mem fun {p q} hp hq hne o _ => ?_
    rw [reports_iff (h.declares p hp), reports_iff (h.declares q hq)]
    exact fun hboth => hne (reportsSender_unique hboth.1 hboth.2)
  total := if_neg h.bounds.1
  left := by
    have hcount := List.length_eq_countP_add_countP
      (fun o => decide (∃ want ∈ profiles.map senderOf, ReportsSender want o)) (l := all)
    have hrest : (all.countP fun o => ∀ p ∈ profiles, ¬ Reports p o) =
        all.countP fun o => decide (¬ decide (∃ want ∈ profiles.map senderOf,
          ReportsSender want o) = true) := by
      refine List.countP_congr fun o _ => ?_
      simp only [decide_eq_true_eq, not_exists, not_and, List.forall_mem_map]
      exact forall₂_congr fun p hp => not_congr (reports_iff (h.declares p hp) o)
    dsimp only
    rw [hrest, selectedOf_eq h.nodup]
    omega

/-- **The batch partitions the recording**, in whatever order the profiles stand, and its two
refusals about the counts cannot be reached.  `Partitions` says that each sender has the plain
rows with its ids, in order, and that what remains is counted.  There are no hypotheses: profiles,
input and limits are arbitrary, and the refusals that a batch may end in are about a profile, a
bound or the recording. -/
theorem readWithLimits_partitions :
    (∀ result, readWithLimits sha256 profiles input limits = .ok result →
      ∃ all, Partitions sha256 profiles input result all) ∧
    (∀ others, profiles.Perm others → ∀ result,
      readWithLimits sha256 profiles input limits = .ok result →
      ∃ result', readWithLimits sha256 others input limits = .ok result' ∧
        result'.senders.Perm result.senders ∧
        result' = { result with senders := result'.senders }) ∧
    readWithLimits sha256 profiles input limits ≠ refusal "inconsistent sender accounting" ∧
    readWithLimits sha256 profiles input limits ≠ refusal "overlapping sender accounting" := by
  refine ⟨fun result h => ?_, fun others hperm result h => ?_, ?_, ?_⟩
  · obtain ⟨all, hall, rfl⟩ := readWithLimits_eq_ok.mp h
    exact ⟨all, partitions sha256 profiles input limits hall⟩
  · obtain ⟨all, hall, rfl⟩ := readWithLimits_eq_ok.mp h
    have hothers := hall.perm hperm
    refine ⟨_, readWithLimits_eq_ok.mpr ⟨all, hothers, rfl⟩, hperm.symm.map _, ?_⟩
    have hsum : selectedOf all others = selectedOf all profiles :=
      (hperm.symm.map (recordsOf all)).sum_eq
    simp [resultOf, hsum, hall.bounds.1, hothers.bounds.1]
  · intro h
    have hends := ends_readWithLimits sha256 profiles input limits
    rw [h] at hends
    exact hends.1 rfl
  · intro h
    have hends := ends_readWithLimits sha256 profiles input limits
    rw [h] at hends
    exact hends.2 rfl

end Main

end Musubi.Reference.TlogSenderBatch
