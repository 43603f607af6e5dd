/-
# The records of a TLOG recording

A record is read safely and takes its word and its frame off what is left, so a reading returns
exactly when there is a run of records through the whole input; without a selection it is the rows
of the records, with one the rows of those that the sender has.  What the reader says about a
record is found under the names of the reader, whatever the message reports.

This module turns the loop of the reader into the scan of `Lib.Scan` and then into a list: the
records of the input with the state before each, from which the rows are a `map`.  Everything that
is said about readings afterwards, what they keep, what they select, how they are counted, starts
from these two equations and does not see the loop.
-/
import Musubi.Reference.Cause
import Musubi.Reference.Tlog

namespace Musubi.Reference.Tlog

open Lib Lib.Checked Musubi.Core Mavlink

/-! ## 1. One record -/

variable {off : ℕ} {fr rest : List UInt8} {h : FrameHeader}

theorem safe_readHeader (off : ℕ) (hfr : 6 ≤ fr.length) :
    Safe (readHeader off fr) fun h => h.hdrLen = 10 ∨ h.hdrLen = 6 := by
  unfold readHeader
  refine (safe_index (by omega)).bind fun magic hmagic => ?_
  split
  · next hv2 =>
    by_cases hheader : HasHeader fr
    · rw [parseMavlink2Header_ok hheader, mapErr_ok, ok_bind]
      refine Safe.guard fun _ => ?_
      exact safe_pure (Or.inl rfl)
    · obtain ⟨e, he⟩ := parseMavlink2Header_fail hheader
      rw [he, mapErr_fail, fail_bind]
      exact safe_fail _
  · split
    · refine (safe_index (by omega)).bind fun len _ => ?_
      refine (safe_index (by omega)).bind fun msgid _ => ?_
      exact safe_pure (Or.inr rfl)
    · exact safe_fail _

theorem safe_checkCrc (off : ℕ) (hh : 1 ≤ h.hdrLen) (hfr : h.total ≤ fr.length) :
    Safe (checkCrc off fr h) fun _ => True := by
  have hcrc : h.hdrLen + h.payloadLen + 2 ≤ fr.length :=
    Nat.le_trans (Nat.le_add_right _ _) hfr
  unfold checkCrc
  split
  · exact safe_pure trivial
  · refine (safe_slice (by omega) (by omega)).bind fun covered _ => ?_
    refine (safe_index (by omega)).bind fun low _ => ?_
    refine (safe_index (by omega)).bind fun high _ => ?_
    exact Safe.guard fun _ => safe_pure trivial

/-- What a record takes of what is left: its word and its frame, byte for byte, and the frame is
as long as its header says. -/
structure Framed.Heads (x : Framed) (rest : List UInt8) : Prop where
  pos : 0 < x.header.total
  length_raw : x.raw.length = x.header.total
  bytes : beBytes 8 x.recordedWord.toNat ++ x.raw = rest.take (8 + x.header.total)
  le : 8 + x.header.total ≤ rest.length

theorem bytesAt_eq_take {n : ℕ} {p : List UInt8} (hp : n ≤ p.length) :
    bytesAt n p 0 = p.take n := by
  refine List.ext_getElem (by simp [bytesAt, hp]) fun i h1 h2 => ?_
  have hi : i < p.length := by
    rw [List.length_take] at h2
    omega
  simp [bytesAt, hi]

/-- Eight bytes are the word that they spell. -/
theorem beBytes_word {bytes : List UInt8} (hbytes : bytes.length = 8) :
    beBytes 8 (UInt64.ofNat (ofBeBytes bytes)).toNat = bytes := by
  have hlt := ofLeBytes_lt bytes.reverse
  have hwrite := leBytes_ofLeBytes bytes.reverse
  rw [List.length_reverse, hbytes] at hlt hwrite
  rw [UInt64.toNat_ofNat_of_lt' (by exact hlt), ofBeBytes, beBytes, hwrite, List.reverse_reverse]

theorem safe_readFrame (off : ℕ) (rest : List UInt8) :
    Safe (readFrame off rest) fun x => x.Heads rest := by
  unfold readFrame
  refine Safe.guard fun hlong => ?_
  refine (safe_slice (by omega) (Nat.le_refl _)).bind ?_
  rintro fr ⟨rfl, hlen⟩
  refine (safe_readHeader off (by omega)).bind fun h hh => ?_
  have hmin : h.hdrLen + 2 ≤ h.total := by
    unfold FrameHeader.total
    omega
  refine (safe_index (by omega)).bind fun magic _ => ?_
  refine Safe.guard fun hfits => ?_
  refine Safe.guard fun _ => ?_
  refine (safe_checkCrc off (by omega) (by omega)).bind fun _ _ => ?_
  have hpayload : h.hdrLen + h.payloadLen ≤ h.total := by
    unfold FrameHeader.total
    omega
  refine (safe_slice (by omega) (by omega)).bind fun payload _ => ?_
  split
  · exact safe_fail _
  have hid : (if h.hdrLen = 10 then 4 else 2) + 2 < h.total := by
    split <;> omega
  refine (safe_index (by omega)).bind fun sequence _ => ?_
  refine (safe_index (by omega)).bind fun systemId _ => ?_
  refine (safe_index (by omega)).bind fun componentId _ => ?_
  refine (safe_slice (Nat.zero_le _) (by omega)).bind ?_
  rintro raw ⟨hraw, hrawLen⟩
  have hrest : (rest.drop 8).take (rest.length - 8) = rest.drop 8 :=
    List.take_of_length_le (Nat.le_of_eq List.length_drop)
  refine safe_pure ⟨by dsimp only; omega, hrawLen, ?_, by dsimp only; omega⟩
  dsimp only
  rw [hraw, hrest, beBytes_word (by simp [bytesAt]), bytesAt_eq_take (by omega), List.drop_zero,
    Nat.sub_zero, List.take_add]

theorem keeps_records (profile : FamilyProfile) : (records profile).Keeps fun _ => True := by
  intro sequences rest off _ _
  refine (safe_readFrame off rest).bind fun x hx => ?_
  exact safe_pure ⟨Nat.add_pos_left (by decide) _, hx.le, trivial⟩

/-! ## 2. Runs -/

section Runs

variable {sha256 : List UInt8 → Digest} {profile : FamilyProfile} {rc : Bool} {input : Slice}
  {obs : List Observation}

theorem safe_emit (sha256 : List UInt8 → Digest) (profile : FamilyProfile) (rc : Bool)
    (e : Emitted) (r : Scanned Sequences Framed) :
    Safe (emit sha256 profile rc e r) fun _ => True := by
  unfold emit
  split
  · exact safe_pure trivial
  · refine Safe.guard fun _ => ?_
    split <;> exact safe_pure trivial

/-- The records of a whole recording: a run of the reader from its first byte to its last, with no
counters known before it. -/
def Recorded (profile : FamilyProfile) (bytes : List UInt8)
    (rs : List (Scanned Sequences Framed)) : Prop :=
  ∃ sequences, (records profile).Run bytes 0 (fun _ => none) rs bytes.length sequences

/-- **A reading returns when the recording is one of records**, and then it is what the loop over
them makes. -/
theorem readInternal_eq_ok :
    readInternal sha256 profile input rc = .ok obs ↔
      Accepts profile ∧ ∃ rs e, Recorded profile input.bytes rs ∧
        rs.foldlM (emit sha256 profile rc) ⟨[], 0⟩ = .ok e ∧ finish sha256 profile e = .ok obs := by
  have hscan {q : ℕ} {sequences : Sequences} {e : Emitted} :=
    Scanner.scan_feed_eq_ok (q := q) (t := sequences) (b := e) (keeps_records profile)
      (safe_emit sha256 profile rc) trivial
      (Nat.zero_le input.bytes.length) (s := fun _ => none) (a := ⟨[], 0⟩)
  unfold readInternal
  split
  · next hrefused => exact iff_of_false (fun h => by cases h) (fun h => hrefused h.1)
  · next haccepts =>
    rw [not_not] at haccepts
    simp only [bind_eq_ok, mapErr_eq_ok]
    constructor
    · rintro ⟨⟨q, sequences, e⟩, hok, hfinish⟩
      obtain ⟨rs, hrun, hstop, hfold⟩ := hscan.mp hok
      have hq := hrun.le_length (Nat.zero_le _)
      have hnil : input.bytes.drop q = [] := by simpa [records] using hstop
      rw [List.drop_eq_nil_iff] at hnil
      obtain rfl : q = input.bytes.length := by omega
      exact ⟨haccepts, rs, e, ⟨sequences, hrun⟩, hfold, hfinish⟩
    · rintro ⟨-, rs, e, ⟨sequences, hrun⟩, hfold, hfinish⟩
      exact ⟨(input.bytes.length, sequences, e),
        hscan.mpr ⟨rs, hrun, by simp [records], hfold⟩, hfinish⟩

/-- Without a selection every record has its row, so nothing is selected out and nothing is
counted. -/
theorem foldlM_emit_none (hnone : profile.declaredSender = none)
    (rs : List (Scanned Sequences Framed)) (e : Emitted) :
    rs.foldlM (emit sha256 profile rc) e =
      .ok { e with out := e.out ++ rs.map fun r => row sha256 profile rc r [] } := by
  induction rs generalizing e with
  | nil => simp [pure, Except.pure]
  | cons r rs ih =>
    have hemit : emit sha256 profile rc e r =
        .ok { e with out := e.out ++ [row sha256 profile rc r []] } := by
      rw [emit, hnone]
      rfl
    rw [List.foldlM_cons, hemit, ok_bind, ih, List.map_cons, List.append_assoc,
      List.singleton_append]

theorem finish_none (hnone : profile.declaredSender = none) (e : Emitted) :
    finish sha256 profile e = .ok e.out := by
  unfold finish
  rw [hnone]
  rfl

/-- **The plain reading**: the rows of the records, one for each, in order. -/
theorem readInternal_none (hnone : profile.declaredSender = none) :
    readInternal sha256 profile input rc = .ok obs ↔
      Accepts profile ∧ ∃ rs, Recorded profile input.bytes rs ∧
        obs = rs.map fun r => row sha256 profile rc r [] := by
  rw [readInternal_eq_ok]
  refine and_congr_right fun _ => exists_congr fun rs => ?_
  constructor
  · rintro ⟨e, hrun, hfold, hfinish⟩
    rw [foldlM_emit_none hnone] at hfold
    rw [finish_none hnone] at hfinish
    cases hfold
    cases hfinish
    exact ⟨hrun, rfl⟩
  · rintro ⟨hrun, rfl⟩
    exact ⟨_, hrun, foldlM_emit_none hnone rs _, finish_none hnone _⟩

end Runs

/-! ## 3. What the reader says -/

/-- `field` on the fields alone. -/
def reported (fields : Fields) (name : String) : Option FieldValue :=
  (fields.find? fun entry => entry.1 = name).map Prod.snd

theorem field_eq_reported (o : Observation) (name : String) :
    field o name = reported o.fields name := rfl

/-- A name of the reader is not found among those of a message. -/
theorem reported_append_own {own : Fields} (hown : OwnNames own) (fields : Fields)
    {cs : List Char} (hcs : ['M', 'A', 'V', 'L', 'I', 'N', 'K', '.'] <+: cs) :
    reported (own ++ fields) (String.ofList cs) = reported fields (String.ofList cs) := by
  have hnone : own.find? (fun entry => entry.1 = String.ofList cs) = none := by
    rw [List.find?_eq_none]
    intro entry hentry hname
    have hlist : (String.ofList cs).toList = cs := String.toList_ofList
    have hne := hown entry hentry
    rw [decide_eq_true_iff.mp hname, OwnName, hlist] at hne
    exact hne hcs
  rw [reported, List.find?_append, hnone, Option.none_or]
  rfl

@[simp] theorem reported_nil (name : String) : reported [] name = none := rfl

theorem reported_cons (entry : String × FieldValue) (fields : Fields) (name : String) :
    reported (entry :: fields) name =
      if entry.1 = name then some entry.2 else reported fields name := by
  unfold reported
  rw [List.find?_cons]
  by_cases h : entry.1 = name <;> simp [h]

theorem reported_append (fields more : Fields) (name : String) :
    reported (fields ++ more) name = (reported fields name).or (reported more name) := by
  simp only [reported, List.find?_append, Option.map_or]

/-- A byte as a field. -/
def byte (v : UInt8) : FieldValue := .i64 (.ofNat v.toNat)

theorem byte_inj {a b : UInt8} : byte a = byte b ↔ a = b := by
  refine ⟨fun h => ?_, fun h => by rw [h]⟩
  have ha := a.toNat_lt
  have hb := b.toNat_lt
  have hint := congrArg Int64.toInt (FieldValue.i64.inj h)
  rw [Int64.toInt_ofNat_of_lt (by omega), Int64.toInt_ofNat_of_lt (by omega)] at hint
  exact UInt8.toNat_inj.mp (by exact_mod_cast hint)

/-- The names of what is said about the counters. -/
def sequenceNames : List String :=
  ["MAVLINK.previous_packet_sequence", "MAVLINK.recorded_sequence_step_mod256",
    "MAVLINK.previous_record_offset_bytes", "MAVLINK.recorded_sequence_relation"]

theorem reported_sequenceFields {name : String} (h : name ∉ sequenceNames) (x : Framed)
    (previous : Option (UInt8 × ℕ)) : reported (x.sequenceFields previous) name = none := by
  simp only [sequenceNames, List.mem_cons, List.not_mem_nil, or_false, not_or] at h
  obtain ⟨h1, h2, h3, h4⟩ := h
  unfold Framed.sequenceFields
  cases previous <;>
    simp [reported_cons, text, u8Field, f, Ne.symm h1, Ne.symm h2, Ne.symm h3, Ne.symm h4]

section Row

variable (sha256 : List UInt8 → Digest) (profile : FamilyProfile) (rc : Bool)
  (r : Scanned Sequences Framed) (added : Fields) {name : String} {cs : List Char}

/-- Under a name of the reader its own fields are found. -/
theorem field_row (hname : name = String.ofList cs)
    (hcs : ['M', 'A', 'V', 'L', 'I', 'N', 'K', '.'] <+: cs) :
    field (row sha256 profile rc r added) name =
      reported (r.item.sequenceFields (r.item.previous (isMavproxy profile) r.before) ++
        r.item.frameFields profile ++ added) name := by
  have hown := ownNames_decodeWith r.item.payload rc r.item.wireV2 r.item.header.msgid
  rw [hname, ← reported_append_own hown _ hcs]
  simp only [field_eq_reported, row, observation, List.append_assoc]

theorem field_row_frame (hname : name = String.ofList cs)
    (hcs : ['M', 'A', 'V', 'L', 'I', 'N', 'K', '.'] <+: cs) (hseq : name ∉ sequenceNames) :
    field (row sha256 profile rc r added) name =
      reported (r.item.frameFields profile ++ added) name := by
  rw [field_row sha256 profile rc r added hname hcs, List.append_assoc, reported_append,
    reported_sequenceFields hseq, Option.none_or]

@[simp] theorem field_systemId :
    field (row sha256 profile rc r added) "MAVLINK.system_id" = some (byte r.item.systemId) := by
  rw [field_row_frame sha256 profile rc r added rfl (by decide) (by simp [sequenceNames])]
  simp [Framed.frameFields, reported_cons, text, f, u8Field, byte]

@[simp] theorem field_componentId :
    field (row sha256 profile rc r added) "MAVLINK.component_id" =
      some (byte r.item.componentId) := by
  rw [field_row_frame sha256 profile rc r added rfl (by decide) (by simp [sequenceNames])]
  simp [Framed.frameFields, reported_cons, text, f, u8Field, byte]

@[simp] theorem field_packetSequence :
    field (row sha256 profile rc r added) "MAVLINK.packet_sequence" =
      some (byte r.item.sequence) := by
  rw [field_row_frame sha256 profile rc r added rfl (by decide) (by simp [sequenceNames])]
  simp [Framed.frameFields, reported_cons, text, f, u8Field, byte]

@[simp] theorem field_crcVerified :
    field (row sha256 profile rc r added) "MAVLINK.crc_verified" =
      some (.i64 (flag (crcExtra r.item.header.msgid).isSome)) := by
  rw [field_row_frame sha256 profile rc r added rfl (by decide) (by simp [sequenceNames])]
  unfold Framed.frameFields
  cases isRecorded profile <;> simp [reported_cons, text, f, u8Field]

@[simp] theorem field_rawFrameHex :
    field (row sha256 profile rc r added) "MAVLINK.raw_frame_hex" =
      some (.text (hexLower r.item.raw)) := by
  rw [field_row_frame sha256 profile rc r added rfl (by decide) (by simp [sequenceNames])]
  unfold Framed.frameFields
  cases isRecorded profile <;> simp [reported_cons, text, f, u8Field]

@[simp] theorem field_mavproxyRecordedWord :
    field (row sha256 profile rc r []) "MAVLINK.mavproxy_recorded_word" =
      if isMavproxy profile then some (.text r.item.recordedWord.toNat.repr) else none := by
  rw [field_row_frame sha256 profile rc r [] rfl (by decide) (by simp [sequenceNames])]
  unfold Framed.frameFields
  cases isMavproxy profile <;> cases isRecorded profile <;>
    simp [reported_cons, text, f, u8Field]

@[simp] theorem field_mavproxyLinkTag :
    field (row sha256 profile rc r []) "MAVLINK.mavproxy_link_tag" =
      if isMavproxy profile then some (byte (linkTag r.item.recordedWord)) else none := by
  rw [field_row_frame sha256 profile rc r [] rfl (by decide) (by simp [sequenceNames])]
  unfold Framed.frameFields
  cases isMavproxy profile <;> cases isRecorded profile <;>
    simp [reported_cons, text, f, u8Field, byte]

@[simp] theorem field_hostRecordedUs :
    field (row sha256 profile rc r []) "MAVLINK.host_recorded_us" =
      if isRecorded profile then
        some (.text (r.item.hostUs (isMavproxy profile)).toNat.repr)
      else none := by
  rw [field_row_frame sha256 profile rc r [] rfl (by decide) (by simp [sequenceNames])]
  unfold Framed.frameFields
  cases isMavproxy profile <;> cases isRecorded profile <;>
    simp [reported_cons, text, f, u8Field]

@[simp] theorem field_hostReceivedUs :
    field (row sha256 profile rc r []) "MAVLINK.host_received_us" =
      if isRecorded profile then none
      else some (.text (r.item.hostUs (isMavproxy profile)).toNat.repr) := by
  rw [field_row_frame sha256 profile rc r [] rfl (by decide) (by simp [sequenceNames])]
  unfold Framed.frameFields
  cases isMavproxy profile <;> cases isRecorded profile <;>
    simp [reported_cons, text, f, u8Field]

end Row

/-! ## 4. A recording -/

/-- Heartbeats, two of a vehicle and one of a ground station. -/
def exampleRecording : Slice where
  bytes :=
    beBytes 8 1000000 ++ [253, 9, 0, 0, 7, 1, 1, 0, 0, 0] ++ [0, 0, 0, 0, 2, 3, 81, 3, 3] ++
      [161, 32] ++
    beBytes 8 1500000 ++ [253, 9, 0, 0, 3, 255, 190, 0, 0, 0] ++ [0, 0, 0, 0, 2, 3, 81, 3, 3] ++
      [244, 192] ++
    beBytes 8 2000000 ++ [253, 9, 0, 0, 8, 1, 1, 0, 0, 0] ++ [0, 0, 0, 0, 2, 3, 81, 3, 3] ++
      [38, 194]
  length_lt := by decide

/-- A profile of a ground station that records without a selection. -/
def exampleProfile : FamilyProfile where
  profileId := "gcs"
  version := "1"
  family := .ugv
  sourceRole := .gcs
  format := "mavlink_tlog"
  extensions := ["tlog"]
  fields := ⟨"host_recorded_us", [], [], [], [], []⟩
  fieldUnits := .empty
  channels := []
  expectations := []
  defaultClockBasis := .unknown
  declaredPlatformDomain := none
  declaredSender := none
  declaredClockRate := none
  origin := "gcs.toml"

end Musubi.Reference.Tlog
