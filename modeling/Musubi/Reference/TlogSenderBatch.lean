/-
# Reading several senders of a TLOG recording

`reference-readers/src/tlog_sender_batch.rs`: one recording is read once for every profile of a
list, each declaring a sender of its own.  What is left over is inferred from the counts of the
single readings, so the inference is guarded: the counts have to agree on the total, and the
selected records must not be more than that.

A batch has limits of its own on the number of profiles, the size of the input and the
observations of all senders together.  They are checked where the source checks them, the last one
after each sender, so a batch may be refused although each of its senders could be read.

The lemmas here are about one profile after others; the partition itself is `TlogPartition`.
-/
import Musubi.Lib.CheckedInt
import Musubi.Reference.TlogSelection

namespace Musubi.Reference.TlogSenderBatch

open Lib Lib.Checked Musubi.Core Tlog

/-! ## 1. The batch -/

structure Limits where
  inputBytes : UInt64
  aggregateReadBytes : UInt64
  observations : UInt64
deriving DecidableEq, Repr

def Limits.default : Limits where
  inputBytes := 16 * 1024 * 1024
  aggregateReadBytes := 64 * 1024 * 1024
  observations := 100000

structure SenderOutput where
  profile : FamilyProfile
  observations : List Observation
  selectedRecords : ℕ
  unselectedRecords : ℕ

structure BatchOutput where
  inputSha256 : String
  totalRecords : ℕ
  selectedRecords : ℕ
  unselectedRecords : ℕ
  senders : List SenderOutput

def refusal {α : Type} (what : String) : Checked ReadError α := fail (.profile what)

/-- What no single limit forbids: some profiles and not too many, limits that are not zero, an
input within its limit, and a product of size and profiles that neither overflows nor is too
large. -/
def WithinBounds (profiles : List FamilyProfile) (input : Slice) (limits : Limits) : Prop :=
  profiles ≠ [] ∧ profiles.length ≤ 8 ∧ limits.inputBytes ≠ 0 ∧ limits.aggregateReadBytes ≠ 0 ∧
    limits.observations ≠ 0 ∧ input.bytes.length ≤ limits.inputBytes.toNat ∧
    (checkedU64 (input.bytes.length * profiles.length)).any (· ≤ limits.aggregateReadBytes.toNat)

instance (profiles : List FamilyProfile) (input : Slice) (limits : Limits) :
    Decidable (WithinBounds profiles input limits) := inferInstanceAs (Decidable (_ ∧ _))

/-- The senders before a profile and its own. -/
def checkProfile (tuples : List (UInt8 × UInt8)) (profile : FamilyProfile) :
    Checked ReadError (List (UInt8 × UInt8)) :=
  match profile.declaredSender with
  | none => refusal "batch requires explicit sender"
  | some sender =>
    let tuple := (sender.systemId, sender.componentId)
    if sender.systemId = 0 ∨ sender.componentId = 0 ∨ tuple ∈ tuples ∨
        profile.format ≠ "mavlink_tlog" ∨ profile.fields.time ≠ "host_recorded_us" ∨
        profile.sourceRole ≠ .gcs ∨ profile.defaultClockBasis ≠ .unknown then
      refusal "batch requires distinct nonzero recorded GCS sender profiles"
    else return tuple :: tuples

variable (sha256 : List UInt8 → Digest)

def count (first : Observation) (key : String) : Checked ReadError ℕ :=
  match field first key with
  | some (.i64 n) =>
    if n.toInt < 0 then refusal "invalid sender accounting" else return n.toInt.toNat
  | _ => refusal "missing sender accounting"

def readSender (input : Slice) (limits : Limits) (result : BatchOutput)
    (profile : FamilyProfile) : Checked ReadError BatchOutput := do
  let observations ← read sha256 profile input
  match observations.head? with
  | none => refusal "batch sender absent"
  | some first => do
    let selected ← count first "MAVLINK.selected_sender_records"
    let unselected ← count first "MAVLINK.unselected_sender_records"
    match checkedU64 (selected + unselected) with
    | none => refusal "sender count overflow"
    | some total =>
      if selected ≠ observations.length ∨
          (result.senders ≠ [] ∧ result.totalRecords ≠ total) then
        refusal "inconsistent sender accounting"
      else
        match (checkedU64 (result.selectedRecords + selected)).filter
            (· ≤ limits.observations.toNat) with
        | none => refusal "batch observation bound"
        | some selectedRecords =>
          return { result with
            selectedRecords
            totalRecords := total
            senders := result.senders ++ [⟨profile, observations, selected, unselected⟩] }

def readWithLimits (profiles : List FamilyProfile) (input : Slice) (limits : Limits) :
    Checked ReadError BatchOutput :=
  if ¬ WithinBounds profiles input limits then refusal "TLOG sender batch resource bound"
  else do
    let _ ← profiles.foldlM checkProfile []
    let result ← profiles.foldlM (readSender sha256 input limits)
      ⟨hexLower (sha256 input.bytes).toList, 0, 0, 0, []⟩
    if result.totalRecords < result.selectedRecords then refusal "overlapping sender accounting"
    else return { result with
      unselectedRecords := result.totalRecords - result.selectedRecords }

def read (profiles : List FamilyProfile) (input : Slice) : Checked ReadError BatchOutput :=
  readWithLimits sha256 profiles input .default

/-! ## 2. Profiles of a batch -/

/-- The sender that a profile declares. -/
def senderOf (profile : FamilyProfile) : SenderSelection := profile.declaredSender.getD ⟨0, 0⟩

/-- What the batch asks of a profile by itself: a sender with an address, and the format, the
clock and the role of a recording with link tags. -/
structure Declares (profile : FamilyProfile) : Prop where
  sender : profile.declaredSender = some (senderOf profile)
  systemId : (senderOf profile).systemId ≠ 0
  componentId : (senderOf profile).componentId ≠ 0
  format : profile.format = "mavlink_tlog"
  time : profile.fields.time = "host_recorded_us"
  role : profile.sourceRole = .gcs
  basis : profile.defaultClockBasis = .unknown

def tuple (want : SenderSelection) : UInt8 × UInt8 := (want.systemId, want.componentId)

theorem tuple_injective : Function.Injective tuple := by
  rintro ⟨s, c⟩ ⟨s', c'⟩ h
  simp only [tuple, Prod.mk.injEq] at h
  rw [h.1, h.2]

theorem checkProfile_eq_ok {tuples after : List (UInt8 × UInt8)} {profile : FamilyProfile} :
    checkProfile tuples profile = .ok after ↔
      Declares profile ∧ tuple (senderOf profile) ∉ tuples ∧
        after = tuple (senderOf profile) :: tuples := by
  unfold checkProfile
  cases hsender : profile.declaredSender with
  | none =>
    refine iff_of_false (fun h => by cases h) (fun h => ?_)
    have hsome := h.1.sender
    rw [hsender] at hsome
    cases hsome
  | some sender =>
    obtain rfl : senderOf profile = sender := by rw [senderOf, hsender, Option.getD_some]
    dsimp only
    split
    · next hrefused =>
      refine iff_of_false (fun h => by cases h) ?_
      rintro ⟨hprofile, htuple, -⟩
      simp [hprofile.systemId, hprofile.componentId, hprofile.format, hprofile.time,
        hprofile.role, hprofile.basis] at hrefused
      exact htuple hrefused
    · next haccepted =>
      simp only [not_or, ne_eq, not_not] at haccepted
      obtain ⟨hs, hc, htuple, hformat, htime, hrole, hbasis⟩ := haccepted
      constructor
      · intro h
        cases h
        exact ⟨⟨hsender, hs, hc, hformat, htime, hrole, hbasis⟩, htuple, rfl⟩
      · rintro ⟨-, -, rfl⟩
        rfl

/-- **The profiles are taken** when each of them is and no sender comes twice. -/
theorem foldlM_checkProfile {profiles : List FamilyProfile} {tuples : List (UInt8 × UInt8)} :
    (∃ after, profiles.foldlM checkProfile tuples = .ok after) ↔
      (∀ p ∈ profiles, Declares p) ∧ (profiles.map senderOf).Nodup ∧
        ∀ p ∈ profiles, tuple (senderOf p) ∉ tuples := by
  induction profiles generalizing tuples with
  | nil => simp [pure, Except.pure]
  | cons profile profiles ih =>
    have hcons : (∃ after, (profile :: profiles).foldlM checkProfile tuples = .ok after) ↔
        Declares profile ∧ tuple (senderOf profile) ∉ tuples ∧
          ∃ after, profiles.foldlM checkProfile (tuple (senderOf profile) :: tuples) =
            .ok after := by
      simp only [List.foldlM_cons, bind_eq_ok, checkProfile_eq_ok]
      constructor
      · rintro ⟨after, _, ⟨hprofile, hnew, rfl⟩, hrest⟩
        exact ⟨hprofile, hnew, after, hrest⟩
      · rintro ⟨hprofile, hnew, after, hrest⟩
        exact ⟨after, _, ⟨hprofile, hnew, rfl⟩, hrest⟩
    have hne : (∀ p ∈ profiles, tuple (senderOf p) ∉ tuple (senderOf profile) :: tuples) ↔
        senderOf profile ∉ profiles.map senderOf ∧ ∀ p ∈ profiles, tuple (senderOf p) ∉ tuples := by
      simp only [List.mem_cons, not_or, forall_and, List.mem_map, not_exists, not_and,
        tuple_injective.eq_iff, eq_comm]
    rw [hcons, ih, hne, List.forall_mem_cons, List.forall_mem_cons, List.map_cons,
      List.nodup_cons]
    tauto

/-! ## 3. The plain reading that they share -/

section Shared

variable {sha256 : List UInt8 → Digest} {profile other : FamilyProfile} {input : Slice}
  {all : List Observation}

/-- Two profiles of a batch read alike. -/
theorem read_unselected_congr (h : Declares profile) (h' : Declares other) :
    Tlog.read sha256 (unselected profile) input = .ok all ↔
      Tlog.read sha256 (unselected other) input = .ok all := by
  have htime : (unselected profile).fields.time = (unselected other).fields.time :=
    h.time.trans h'.time.symm
  have hbasis : (unselected profile).defaultClockBasis = (unselected other).defaultClockBasis :=
    h.basis.trans h'.basis.symm
  have hrole : (unselected profile).sourceRole = (unselected other).sourceRole :=
    h.role.trans h'.role.symm
  have hformat : (unselected profile).format = (unselected other).format :=
    h.format.trans h'.format.symm
  have hmavproxy : isMavproxy (unselected profile) = isMavproxy (unselected other) := by
    rw [isMavproxy, isMavproxy, htime]
  have hrecorded : isRecorded (unselected profile) = isRecorded (unselected other) := by
    rw [isRecorded, isRecorded, htime, hmavproxy]
  have haccepts : Accepts (unselected profile) ↔ Accepts (unselected other) := by
    rw [Accepts, Accepts, hformat, hbasis, hrecorded]
  have hrow (r : Scanned Sequences Framed) :
      row sha256 (unselected profile) false r [] = row sha256 (unselected other) false r [] := by
    simp only [row, observation, Framed.frameFields, hmavproxy, hrecorded, hbasis, hrole]
  have hrecords : records (unselected profile) = records (unselected other) := by
    rw [records, records, hmavproxy]
  unfold Tlog.read
  rw [readInternal_none rfl, readInternal_none rfl, haccepts]
  simp only [Recorded, hrecords, hrow]

end Shared

/-! ## 4. Counting -/

section Counting

variable {sha256 : List UInt8 → Digest} {want want' : SenderSelection} {o : Observation}

/-- A row reports one sender, so it is in the selection of at most one profile. -/
theorem reportsSender_unique (h : ReportsSender want o) (h' : ReportsSender want' o) :
    want = want' := by
  obtain ⟨s, c⟩ := want
  obtain ⟨s', c'⟩ := want'
  obtain rfl : s = s' := byte_inj.mp (Option.some_inj.mp (h.1.symm.trans h'.1))
  obtain rfl : c = c' := byte_inj.mp (Option.some_inj.mp (h.2.symm.trans h'.2))
  rfl

/-- The rows that report the sender. -/
def chosen (want : SenderSelection) (all : List Observation) : List Observation :=
  all.filter (ReportsSender want ·)

theorem length_selection (all : List Observation) :
    (selection sha256 want all).length = (chosen want all).length := by
  unfold selection chosen
  dsimp only
  cases all.filter (ReportsSender want ·) <;> simp

/-- **Distinct senders share no row**, so their rows add up to the rows that any of them has. -/
theorem sum_length_chosen {wants : List SenderSelection} (hnodup : wants.Nodup)
    (all : List Observation) :
    (wants.map fun want => (chosen want all).length).sum =
      all.countP fun o => ∃ want ∈ wants, ReportsSender want o := by
  induction wants with
  | nil => simp
  | cons want wants ih =>
    rw [List.nodup_cons] at hnodup
    rw [List.map_cons, List.sum_cons, ih hnodup.2, chosen, ← List.countP_eq_length_filter]
    clear ih
    induction all with
    | nil => rfl
    | cons o all ih =>
      have hdisjoint : ReportsSender want o → ¬ ∃ w ∈ wants, ReportsSender w o := by
        rintro hwant ⟨w, hw, hreports⟩
        exact hnodup.1 (reportsSender_unique hwant hreports ▸ hw)
      rw [List.countP_cons, List.countP_cons, List.countP_cons, ← ih]
      by_cases hwant : ReportsSender want o
      · have hothers := hdisjoint hwant
        simp only [List.exists_mem_cons_iff, hwant, hothers, true_or, decide_true, decide_false,
          Bool.false_eq_true, if_true, if_false]
        omega
      · simp only [List.exists_mem_cons_iff, hwant, false_or, decide_false, Bool.false_eq_true,
          if_false]
        omega

end Counting

/-! ## 5. One sender after others -/

section Sender

variable {sha256 : List UInt8 → Digest} {profile : FamilyProfile} {input : Slice}
  {limits : Limits} {all : List Observation}

/-- The number of rows that report the sender of a profile. -/
def recordsOf (all : List Observation) (profile : FamilyProfile) : ℕ :=
  (chosen (senderOf profile) all).length

/-- What is written down of a sender. -/
def senderOutput (sha256 : List UInt8 → Digest) (all : List Observation)
    (profile : FamilyProfile) : SenderOutput :=
  ⟨profile, selection sha256 (senderOf profile) all, recordsOf all profile,
    all.length - recordsOf all profile⟩

/-- The number of records of some senders. -/
def selectedOf (all : List Observation) (profiles : List FamilyProfile) : ℕ :=
  (profiles.map (recordsOf all)).sum

/-- The result after some senders. -/
def resultOf (sha256 : List UInt8 → Digest) (input : Slice) (all : List Observation)
    (profiles : List FamilyProfile) : BatchOutput where
  inputSha256 := hexLower (sha256 input.bytes).toList
  totalRecords := if profiles = [] then 0 else all.length
  selectedRecords := selectedOf all profiles
  unselectedRecords := 0
  senders := profiles.map (senderOutput sha256 all)

/-- The plain rows let the sender be read. -/
def Readable (want : SenderSelection) (all : List Observation) : Prop :=
  (∀ o ∈ all, Addressable o) ∧ ∃ o ∈ all, ReportsSender want o

theorem read_eq_ok (hprofile : Declares profile) {obs : List Observation} :
    Tlog.read sha256 profile input = .ok obs ↔
      ∃ all, Tlog.read sha256 (unselected profile) input = .ok all ∧
        Readable (senderOf profile) all ∧ obs = selection sha256 (senderOf profile) all := by
  have hselects := @readInternal_eq_selection sha256 profile false input obs (senderOf profile)
  have hsame : { profile with declaredSender := some (senderOf profile) } = profile := by
    rw [← hprofile.sender]
  rw [hsame] at hselects
  unfold Tlog.read
  simpa only [Readable, and_assoc] using hselects

theorem count_eq {first : Observation} {key : String} {n : Int64}
    (h : field first key = some (.i64 n)) {m : ℕ} (hn : n.toInt = m) : count first key = .ok m := by
  unfold count
  rw [h]
  dsimp only
  rw [if_neg (by omega), hn]
  rfl

/-- A bound that a `usize` holds is the only one. -/
theorem checkedU64_filter_le (n : ℕ) (limit : UInt64) :
    (checkedU64 n).filter (· ≤ limit.toNat) = if n ≤ limit.toNat then some n else none := by
  have hlt := limit.toNat_lt
  unfold checkedU64
  by_cases hn : n ≤ limit.toNat
  · rw [if_pos (by omega), if_pos hn]
    simpa using hn
  · rw [if_neg hn]
    split
    · simpa [Option.filter] using hn
    · rfl

/-- **A sender after others**: only the bound on the observations is in the way. -/
theorem readSender_eq (hprofile : Declares profile)
    (hall : Tlog.read sha256 (unselected profile) input = .ok all)
    (hread : Readable (senderOf profile) all) (done : List FamilyProfile) :
    readSender sha256 input limits (resultOf sha256 input all done) profile =
      if selectedOf all (done ++ [profile]) ≤ limits.observations.toNat then
        .ok (resultOf sha256 input all (done ++ [profile]))
      else refusal "batch observation bound" := by
  have hobs := (read_eq_ok hprofile).mpr ⟨all, hall, hread, rfl⟩
  obtain ⟨first, s, u, hhead, hs, hu, hslen, hsum⟩ := counts_of_readInternal hall hread.2
  have hle : recordsOf all profile ≤ all.length := List.length_filter_le _ _
  have hlt : all.length < 2 ^ 63 := by
    obtain ⟨-, rs, hrecorded, rfl⟩ := (readInternal_none rfl).mp hall
    rw [List.length_map]
    exact hrecorded.length_le.trans_lt input.length_lt
  have hlength : (selection sha256 (senderOf profile) all).length = recordsOf all profile :=
    length_selection all
  rw [hlength] at hslen
  have hu' : u.toInt = (all.length - recordsOf all profile : ℕ) := by omega
  have htotal : recordsOf all profile + (all.length - recordsOf all profile) = all.length :=
    Nat.add_sub_cancel' hle
  have hconsistent : ¬ (recordsOf all profile ≠ (selection sha256 (senderOf profile) all).length ∨
      ((resultOf sha256 input all done).senders ≠ [] ∧
        (resultOf sha256 input all done).totalRecords ≠ all.length)) := by
    rw [hlength]
    rintro (h | ⟨hne, h⟩)
    · exact h rfl
    · rw [resultOf, List.map_eq_nil_iff.ne] at hne
      exact h (if_neg hne)
  have hselected : selectedOf all (done ++ [profile]) =
      selectedOf all done + recordsOf all profile := by
    simp [selectedOf]
  have hbounded := checkedU64_filter_le (selectedOf all done + recordsOf all profile)
    limits.observations
  unfold readSender
  rw [hobs, ok_bind, hhead]
  dsimp only
  rw [count_eq hs hslen, ok_bind, count_eq hu hu', ok_bind, htotal, checkedU64,
    if_pos (by omega : all.length < 2 ^ 64)]
  dsimp only
  rw [if_neg hconsistent, hselected]
  change (match (checkedU64 (selectedOf all done + recordsOf all profile)).filter _ with
    | none => _
    | some selectedRecords => _) = _
  rw [hbounded]
  by_cases hfits : selectedOf all done + recordsOf all profile ≤ limits.observations.toNat
  · rw [if_pos hfits, if_pos hfits]
    simp only [resultOf, hselected, List.map_append, List.map_singleton, senderOutput,
      List.append_eq_nil_iff, List.cons_ne_self, and_false, if_false]
    rfl
  · rw [if_neg hfits, if_neg hfits]

theorem selectedOf_append (done more : List FamilyProfile) :
    selectedOf all (done ++ more) = selectedOf all done + selectedOf all more := by
  rw [selectedOf, selectedOf, selectedOf, List.map_append, List.sum_append]

/-- A sender that cannot be read ends the batch: the step for its profile returns no output. -/
theorem not_readSender (hprofile : Declares profile)
    (hall : ∀ all, Tlog.read sha256 (unselected profile) input = .ok all →
      ¬ Readable (senderOf profile) all) (result after : BatchOutput) :
    readSender sha256 input limits result profile ≠ .ok after := by
  intro h
  obtain ⟨obs, hobs, -⟩ := bind_eq_ok.mp h
  obtain ⟨all, hplain, hread, -⟩ := (read_eq_ok hprofile).mp hobs
  exact hall all hplain hread

/-- **The loop over the senders**: each of them can be read, and together they are not more than
the limit. -/
theorem foldlM_readSender {profiles : List FamilyProfile} (hprofiles : ∀ p ∈ profiles, Declares p)
    (hall : ∀ p ∈ profiles, Tlog.read sha256 (unselected p) input = .ok all)
    {done : List FamilyProfile} (hdone : selectedOf all done ≤ limits.observations.toNat)
    {result : BatchOutput} :
    profiles.foldlM (readSender sha256 input limits) (resultOf sha256 input all done) =
        .ok result ↔
      (∀ p ∈ profiles, Readable (senderOf p) all) ∧
        selectedOf all (done ++ profiles) ≤ limits.observations.toNat ∧
        result = resultOf sha256 input all (done ++ profiles) := by
  induction profiles generalizing done with
  | nil => simp [pure, Except.pure, hdone, eq_comm]
  | cons profile profiles ih =>
    rw [List.forall_mem_cons] at hprofiles hall
    rw [List.foldlM_cons, List.forall_mem_cons]
    by_cases hread : Readable (senderOf profile) all
    · have happend : done ++ profile :: profiles = done ++ [profile] ++ profiles := by simp
      rw [readSender_eq hprofiles.1 hall.1 hread]
      split
      · next hfits => rw [ok_bind, ih hprofiles.2 hall.2 hfits, happend]; simp [hread]
      · next hfits =>
        refine iff_of_false (fun h => by cases h) (fun h => hfits ?_)
        have hle := h.2.1
        rw [happend, selectedOf_append _ profiles] at hle
        omega
    · refine iff_of_false (fun h => ?_) (fun h => hread h.1.1)
      obtain ⟨after, hafter, -⟩ := bind_eq_ok.mp h
      refine not_readSender hprofiles.1 (fun all' hall' => ?_) _ _ hafter
      rwa [Except.ok.inj (hall'.symm.trans hall.1)]

end Sender

end Musubi.Reference.TlogSenderBatch
