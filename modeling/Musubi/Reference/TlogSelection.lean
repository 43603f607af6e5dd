/-
# Reading one sender of a TLOG recording

A profile may declare the sender whose records it wants.  The reading then refines the plain one:
it refuses what that refuses, and a recording with a record that has no address, and one without a
record of the sender; otherwise it is the rows of the sender, in their order, with what was
selected written into them, and the first of them counts the records of the whole recording.

Selecting rows of the plain reading and selecting records while reading are not obviously the
same, because the counters of a row refer to what was read before it.  They are, since the loop
reads every record and keeps its counters whether it emits a row or not; a row of another sender
still counts as a predecessor under its own key only.

The refusal of records without an address is the one thing that a plain reading accepts and a
selection does not: a sender of zero could be anybody.
-/
import Musubi.Reference.TlogRecords

namespace Musubi.Reference.Tlog

open Lib Lib.Checked Musubi.Core Mavlink

/-! ## 1. What a selection makes of the rows -/

/-- The row reports the ids of the sender. -/
def ReportsSender (want : SenderSelection) (o : Observation) : Prop :=
  field o "MAVLINK.system_id" = some (byte want.systemId) ∧
    field o "MAVLINK.component_id" = some (byte want.componentId)

instance (want : SenderSelection) : DecidablePred (ReportsSender want) :=
  fun _ => inferInstanceAs (Decidable (_ ∧ _))

/-- The row reports no id that is zero. -/
def Addressable (o : Observation) : Prop :=
  field o "MAVLINK.system_id" ≠ some (byte 0) ∧ field o "MAVLINK.component_id" ≠ some (byte 0)

/-- The rows of a sender, each with the selection, the first with the counts as well. -/
def selection (sha256 : List UInt8 → Digest) (want : SenderSelection) (all : List Observation) :
    List Observation :=
  let chosen := all.filter (ReportsSender want ·)
  match chosen.map (extend sha256 · [selectionField want]) with
  | [] => []
  | first :: rest =>
    extend sha256 first (countFields chosen.length (all.length - chosen.length)) :: rest

section Rows

variable {sha256 : List UInt8 → Digest} {profile : FamilyProfile} {rc : Bool}
  {want : SenderSelection} (r : Scanned Sequences Framed)

theorem reportsSender_row : ReportsSender want (row sha256 profile rc r []) ↔
    r.item.systemId = want.systemId ∧ r.item.componentId = want.componentId := by
  simp [ReportsSender, byte_inj]

theorem addressable_row : Addressable (row sha256 profile rc r []) ↔
    r.item.systemId ≠ 0 ∧ r.item.componentId ≠ 0 := by
  simp [Addressable, byte_inj]

theorem extend_row (fields added : Fields) :
    extend sha256 (row sha256 profile rc r fields) added =
      row sha256 profile rc r (fields ++ added) := by
  simp [extend, row, observation]

end Rows

/-! ## 2. The loop -/

section Loop

variable {sha256 : List UInt8 → Digest} {profile : FamilyProfile} {rc : Bool} {input : Slice}
  {obs : List Observation} {want : SenderSelection}

/-- The record has the ids of the sender. -/
def HasSender (want : SenderSelection) (r : Scanned Sequences Framed) : Prop :=
  r.item.systemId = want.systemId ∧ r.item.componentId = want.componentId

instance : DecidablePred (HasSender want) := fun _ => inferInstanceAs (Decidable (_ ∧ _))

theorem emit_some (hsome : profile.declaredSender = some want) (e : Emitted)
    (r : Scanned Sequences Framed) :
    emit sha256 profile rc e r =
      if r.item.systemId = 0 ∨ r.item.componentId = 0 then
        fail ⟨r.start + 8,
          "record reports no addressable sender while one sender is selected"⟩
      else if HasSender want r then
        .ok { e with out := e.out ++ [row sha256 profile rc r [selectionField want]] }
      else .ok { e with unselectedRecords := e.unselectedRecords + 1 } := by
  unfold emit
  rw [hsome]
  dsimp only
  by_cases h : HasSender want r
  · rw [if_pos h, if_neg (c := _ ∨ _) (by simp [h.1, h.2] : ¬ (r.item.systemId ≠ want.systemId ∨
      r.item.componentId ≠ want.componentId))]
    rfl
  · rw [if_neg h, if_pos (c := _ ∨ _) (by
      rwa [← not_and_or] : r.item.systemId ≠ want.systemId ∨ r.item.componentId ≠ want.componentId)]
    rfl

/-- **The loop with a selection**: every record has an address; those of the sender get their row,
the others are counted. -/
theorem foldlM_emit_some (hsome : profile.declaredSender = some want)
    (rs : List (Scanned Sequences Framed)) {e e' : Emitted} :
    rs.foldlM (emit sha256 profile rc) e = .ok e' ↔
      (∀ r ∈ rs, r.item.systemId ≠ 0 ∧ r.item.componentId ≠ 0) ∧
        e' = ⟨e.out ++ (rs.filter (HasSender want ·)).map fun r =>
            row sha256 profile rc r [selectionField want],
          e.unselectedRecords + (rs.length - (rs.filter (HasSender want ·)).length)⟩ := by
  induction rs generalizing e with
  | nil => simp [pure, Except.pure, eq_comm]
  | cons r rs ih =>
    have hle := List.length_filter_le (HasSender want ·) rs
    rw [List.foldlM_cons, emit_some hsome, List.forall_mem_cons]
    by_cases hzero : r.item.systemId = 0 ∨ r.item.componentId = 0
    · rw [if_pos hzero, fail_bind]
      refine iff_of_false (fun h => by cases h) (fun h => ?_)
      exact not_or.mpr h.1.1 hzero
    rw [if_neg hzero]
    rw [not_or] at hzero
    by_cases hsender : HasSender want r
    · rw [if_pos hsender, ok_bind, ih, List.filter_cons_of_pos (by simpa using hsender)]
      simp [hzero]
    · rw [if_neg hsender, ok_bind, ih, List.filter_cons_of_neg (by simpa using hsender)]
      have hcount : e.unselectedRecords + 1 +
          (rs.length - (rs.filter (HasSender want ·)).length) =
          e.unselectedRecords + (rs.length + 1 - (rs.filter (HasSender want ·)).length) := by
        omega
      simp [hzero, hcount]

theorem finish_some (hsome : profile.declaredSender = some want) (e : Emitted) :
    finish sha256 profile e = .ok obs ↔
      ∃ first rest, e.out = first :: rest ∧
        obs = extend sha256 first (countFields e.out.length e.unselectedRecords) :: rest := by
  unfold finish
  rw [hsome]
  dsimp only
  cases h : e.out with
  | nil => simp [fail]
  | cons first rest => simp [pure, Except.pure, eq_comm]

end Loop

/-! ## 3. The refinement -/

section Refinement

variable {sha256 : List UInt8 → Digest} {profile : FamilyProfile} {rc : Bool} {input : Slice}
  {obs : List Observation} {want : SenderSelection}

/-- The same profile without a selection. -/
def unselected (profile : FamilyProfile) : FamilyProfile := { profile with declaredSender := none }

/-- The rows of a selection are those of the records of the sender. -/
theorem selection_rows (rs : List (Scanned Sequences Framed)) :
    selection sha256 want (rs.map fun r => row sha256 profile rc r []) =
      match rs.filter (HasSender want ·) with
      | [] => []
      | first :: rest =>
        row sha256 profile rc first (selectionField want :: countFields (rest.length + 1)
          (rs.length - (rest.length + 1))) ::
            rest.map fun r => row sha256 profile rc r [selectionField want] := by
  have hfilter : (rs.map fun r => row sha256 profile rc r []).filter (ReportsSender want ·) =
      (rs.filter (HasSender want ·)).map fun r => row sha256 profile rc r [] := by
    rw [List.filter_map]
    refine congrArg _ (List.filter_congr fun r _ => ?_)
    exact decide_eq_decide.mpr (reportsSender_row r)
  unfold selection
  dsimp only
  rw [hfilter]
  cases rs.filter (HasSender want ·) with
  | nil => rfl
  | cons first rest => simp [extend_row]

/-- **The reading with a selection**, over the records. -/
theorem readInternal_some (hsome : profile.declaredSender = some want) :
    readInternal sha256 profile input rc = .ok obs ↔
      Accepts profile ∧ ∃ rs, Recorded profile input.bytes rs ∧
        (∀ r ∈ rs, r.item.systemId ≠ 0 ∧ r.item.componentId ≠ 0) ∧ (∃ r ∈ rs, HasSender want r) ∧
          obs = selection sha256 want (rs.map fun r => row sha256 profile rc r []) := by
  rw [readInternal_eq_ok]
  refine and_congr_right fun _ => exists_congr fun rs => ?_
  simp only [foldlM_emit_some hsome, finish_some hsome, selection_rows]
  have hexists : (∃ r ∈ rs, HasSender want r) ↔ rs.filter (HasSender want ·) ≠ [] := by
    simp [List.filter_eq_nil_iff]
  rw [hexists]
  cases rs.filter (HasSender want ·) with
  | nil => simp
  | cons first rest =>
    simp [extend_row, and_assoc]

theorem toInt_i64OrMax {n : ℕ} (h : n < 2 ^ 63) : (i64OrMax n).toInt = n := by
  rw [i64OrMax, if_pos h]
  exact Int64.toInt_ofNat_of_lt h

/-- The counts are found in the row that carries them. -/
theorem field_selectedRecords (r : Scanned Sequences Framed) (s u : ℕ) :
    field (row sha256 profile rc r (selectionField want :: countFields s u))
      "MAVLINK.selected_sender_records" = some (.i64 (i64OrMax s)) := by
  rw [field_row_frame sha256 profile rc r _ rfl (by decide) (by simp [sequenceNames])]
  unfold Framed.frameFields countFields selectionField
  cases isMavproxy profile <;> cases isRecorded profile <;>
    simp [reported_cons, text, f, u8Field]

theorem field_unselectedRecords (r : Scanned Sequences Framed) (s u : ℕ) :
    field (row sha256 profile rc r (selectionField want :: countFields s u))
      "MAVLINK.unselected_sender_records" = some (.i64 (i64OrMax u)) := by
  rw [field_row_frame sha256 profile rc r _ rfl (by decide) (by simp [sequenceNames])]
  unfold Framed.frameFields countFields selectionField
  cases isMavproxy profile <;> cases isRecorded profile <;>
    simp [reported_cons, text, f, u8Field]

theorem Recorded.length_le {bytes : List UInt8} {rs : List (Scanned Sequences Framed)}
    (h : Recorded profile bytes rs) : rs.length ≤ bytes.length := by
  obtain ⟨t, hrun⟩ := h
  have hle := hrun.le
  omega

/-- The first row of a reading says how many records are the sender's and how many are not. -/
def Counts (all obs : List Observation) : Prop :=
  ∃ first s u, obs.head? = some first ∧
    field first "MAVLINK.selected_sender_records" = some (.i64 s) ∧
    field first "MAVLINK.unselected_sender_records" = some (.i64 u) ∧
    s.toInt = obs.length ∧ s.toInt + u.toInt = all.length

theorem counts_selection {rs : List (Scanned Sequences Framed)} (hlen : rs.length < 2 ^ 63)
    (hsender : ∃ r ∈ rs, HasSender want r) :
    Counts (rs.map fun r => row sha256 profile rc r [])
      (selection sha256 want (rs.map fun r => row sha256 profile rc r [])) := by
  rw [selection_rows]
  have hle := List.length_filter_le (HasSender want ·) rs
  cases hfilter : rs.filter (HasSender want ·) with
  | nil =>
    obtain ⟨r, hr, hsender⟩ := hsender
    exact absurd hsender (by simpa using List.filter_eq_nil_iff.mp hfilter r hr)
  | cons first rest =>
    rw [hfilter, List.length_cons] at hle
    refine ⟨_, _, _, rfl, field_selectedRecords first _ _, field_unselectedRecords first _ _,
      ?_, ?_⟩
    · rw [toInt_i64OrMax (by omega)]
      simp
    · rw [toInt_i64OrMax (by omega), toInt_i64OrMax (by omega), List.length_map]
      omega

/-- The reading of one sender, over the plain reading. -/
theorem readInternal_eq_selection :
    readInternal sha256 { profile with declaredSender := some want } input rc = .ok obs ↔
      ∃ all, readInternal sha256 (unselected profile) input rc = .ok all ∧
        (∀ o ∈ all, Addressable o) ∧ (∃ o ∈ all, ReportsSender want o) ∧
          obs = selection sha256 want all := by
  have hplain {all : List Observation} :=
    @readInternal_none sha256 (unselected profile) rc input all rfl
  rw [@readInternal_some _ _ _ _ _ want rfl]
  constructor
  · rintro ⟨haccepts, rs, hrecorded, haddress, ⟨r, hr, hsender⟩, rfl⟩
    refine ⟨_, hplain.mpr ⟨haccepts, rs, hrecorded, rfl⟩, ?_, ?_, rfl⟩
    · rw [List.forall_mem_map]
      exact fun r hr => (addressable_row r).mpr (haddress r hr)
    · exact ⟨_, List.mem_map_of_mem hr, (reportsSender_row r).mpr hsender⟩
  · rintro ⟨all, hall, haddress, ⟨o, ho, hsender⟩, rfl⟩
    obtain ⟨haccepts, rs, hrecorded, rfl⟩ := hplain.mp hall
    rw [List.forall_mem_map] at haddress
    obtain ⟨r, hr, rfl⟩ := List.mem_map.mp ho
    exact ⟨haccepts, rs, hrecorded, fun r hr => (addressable_row r).mp (haddress r hr),
      ⟨r, hr, (reportsSender_row r).mp hsender⟩, rfl⟩

theorem counts_of_readInternal {all : List Observation}
    (hall : readInternal sha256 (unselected profile) input rc = .ok all)
    (hexists : ∃ o ∈ all, ReportsSender want o) : Counts all (selection sha256 want all) := by
  obtain ⟨o, ho, hsender⟩ := hexists
  obtain ⟨-, rs, hrecorded, rfl⟩ := (readInternal_none rfl).mp hall
  obtain ⟨r, hr, rfl⟩ := List.mem_map.mp ho
  exact counts_selection (hrecorded.length_le.trans_lt input.length_lt)
    ⟨r, hr, (reportsSender_row r).mp hsender⟩

end Refinement

section Main

variable (sha256 : List UInt8 → Digest) (profile : FamilyProfile) (want : SenderSelection)
  (input : Slice) (rc : Bool)

/-- **Reading one sender refines the plain reading**: it returns exactly when that returns, every
row has an address and one reports the sender, and then it is the selection of its rows; the two
counts make up all rows.  The profiles differ in the declared sender alone, and the input is
arbitrary, so the equivalence says both when a selection is refused and what it returns when it is
not. -/
theorem readInternal_selects :
    (∀ obs, readInternal sha256 { profile with declaredSender := some want } input rc = .ok obs ↔
      ∃ all, readInternal sha256 (unselected profile) input rc = .ok all ∧
        (∀ o ∈ all, Addressable o) ∧ (∃ o ∈ all, ReportsSender want o) ∧
          obs = selection sha256 want all) ∧
    ∀ all, readInternal sha256 (unselected profile) input rc = .ok all →
      (∃ o ∈ all, ReportsSender want o) → Counts all (selection sha256 want all) :=
  ⟨fun _ => readInternal_eq_selection, fun _ => counts_of_readInternal⟩

end Main

end Musubi.Reference.Tlog
