/-
# A TLOG reading keeps the recording

The rows of a plain reading hold the recording: the word and the frame of every record stand in
its fields, and put one after the other they are the bytes that were read.  The counters are a
second thing that the rows hold: each is compared with the latest row before it of the same sender
and link tag, unless that row was unqualified, since then the counting starts anew.

Both are stated on the rows and not on the records that they came from, so they can be checked on
what the reader returns.  A frame stands in its row as hexadecimal digits and the word as an
integer; neither has been changed for the time that is reported beside them, from which the link
tag is taken off.

The state of the counters is a map, and section 2 says what it holds after some records: under a
key, what the last record with this key says (`sequencesAfter_eq`).  So the predecessor of a row
can be named without the map.
-/
import Musubi.Reference.TlogRecords

namespace Musubi.Reference.Tlog

open Lib Lib.Checked Musubi.Core Mavlink

/-! ## 1. The bytes of a row -/

/-- The number that decimal digits write. -/
def readDecimal (s : String) : Option ℕ :=
  if s.toList.all Char.isDigit then some (Nat.ofDigitChars 10 s.toList 0) else none

theorem readDecimal_repr (n : ℕ) : readDecimal n.repr = some n := by
  have hdigits : n.repr.toList.all Char.isDigit = true :=
    List.all_eq_true.mpr fun c hc => isDigit_of_mem_repr hc
  rw [readDecimal, if_pos hdigits, Nat.toList_repr, Nat.ofDigitChars_ten_toDigits]

/-- The word of a record, from whichever field the kind of recording has for it. -/
def recordedWord (o : Observation) : Option ℕ :=
  match field o "MAVLINK.mavproxy_recorded_word" <|> field o "MAVLINK.host_recorded_us" <|>
      field o "MAVLINK.host_received_us" with
  | some (.text word) => readDecimal word
  | _ => none

def rawFrame (o : Observation) : Option (List UInt8) :=
  match field o "MAVLINK.raw_frame_hex" with
  | some (.text hex) => unhex hex.toList
  | _ => none

/-- Eight bytes of the word, most significant first, and the frame. -/
def recordBytes (o : Observation) : Option (List UInt8) := do
  let word ← recordedWord o
  let raw ← rawFrame o
  return beBytes 8 word ++ raw

section Row

variable {sha256 : List UInt8 → Digest} {profile : FamilyProfile} {rc : Bool}
  {r : Scanned Sequences Framed}

theorem recordedWord_row :
    recordedWord (row sha256 profile rc r []) = some r.item.recordedWord.toNat := by
  unfold recordedWord
  rw [field_mavproxyRecordedWord, field_hostRecordedUs, field_hostReceivedUs]
  cases hm : isMavproxy profile
  · cases isRecorded profile <;> simp [Framed.hostUs, readDecimal_repr]
  · simp [readDecimal_repr]

theorem recordBytes_row :
    recordBytes (row sha256 profile rc r []) =
      some (beBytes 8 r.item.recordedWord.toNat ++ r.item.raw) := by
  have hraw : rawFrame (row sha256 profile rc r []) = some r.item.raw := by
    rw [rawFrame, field_rawFrameHex]
    exact unhex_hexLower _
  rw [recordBytes, recordedWord_row, hraw]
  rfl

end Row

theorem mapM_recordBytes {sha256 : List UInt8 → Digest} {profile : FamilyProfile} {rc : Bool}
    (rs : List (Scanned Sequences Framed)) :
    (rs.map fun r => row sha256 profile rc r []).mapM recordBytes =
      some (rs.map fun r => beBytes 8 r.item.recordedWord.toNat ++ r.item.raw) := by
  induction rs with
  | nil => rfl
  | cons r rs ih =>
    rw [List.map_cons, List.mapM_cons, recordBytes_row, ih]
    rfl

/-- The records of a run are the bytes that it read, in their order: no byte is left out between
two of them and none is in two. -/
theorem flatMap_records {profile : FamilyProfile} {bytes : List UInt8} {p q : ℕ}
    {s t : Sequences} {rs : List (Scanned Sequences Framed)}
    (h : (records profile).Run bytes p s rs q t) :
    rs.flatMap (fun r => beBytes 8 r.item.recordedWord.toNat ++ r.item.raw) =
      (bytes.drop p).take (q - p) := by
  induction h with
  | nil => simp
  | @cons p q n s s' t x rs hm hstep hpos hle hrest ih =>
    simp only [records] at hstep
    obtain ⟨y, hframe, hstep⟩ := bind_eq_ok.mp hstep
    cases hstep
    have hheads := safe_readFrame p (bytes.drop p)
    rw [hframe] at hheads
    have hpn := hrest.le
    rw [List.flatMap_cons, ih, hheads.bytes, ← List.drop_drop,
      ← List.take_add, show 8 + x.header.total + (q - (p + (8 + x.header.total))) = q - p by omega]

/-! ## 2. The counters -/

/-- What is known of the counters after some records. -/
def sequencesAfter (mavproxy : Bool) (rs : List (Scanned Sequences Framed)) : Sequences :=
  rs.foldl (fun s r => r.item.nextSequences mavproxy r.start s) fun _ => none

/-- **The last record under a key says what is known under it**, unless it was unqualified.  A
frame without a verified checksum takes away what was known before it. -/
theorem sequencesAfter_eq (mavproxy : Bool) (rs : List (Scanned Sequences Framed))
    (key : SourceKey) :
    sequencesAfter mavproxy rs key =
      ((rs.filter fun r => r.item.sourceKey mavproxy = key).getLast?).bind fun r =>
        if r.item.qualified then some (r.item.sequence, r.start) else none := by
  induction rs using List.reverseRecOn with
  | nil => rfl
  | append_singleton rs r ih =>
    rw [sequencesAfter, List.foldl_append, List.foldl_cons, List.foldl_nil, List.filter_append]
    by_cases hkey : r.item.sourceKey mavproxy = key
    · subst hkey
      simp [Framed.nextSequences]
    · rw [Framed.nextSequences, Function.update_of_ne (Ne.symm hkey), ← sequencesAfter, ih]
      simp [hkey]

theorem before_eq_sequencesAfter {profile : FamilyProfile} {bytes : List UInt8}
    {earlier later : List (Scanned Sequences Framed)} {r : Scanned Sequences Framed}
    (h : Recorded profile bytes (earlier ++ r :: later)) :
    r.before = sequencesAfter (isMavproxy profile) earlier := by
  obtain ⟨t, hrun⟩ := h
  obtain ⟨m, u, hearlier, hr⟩ := hrun.of_append
  have hstate {p q : ℕ} {s t : Sequences} {rs : List (Scanned Sequences Framed)}
      (h : (records profile).Run bytes p s rs q t) :
      t = rs.foldl (fun s r => r.item.nextSequences (isMavproxy profile) r.start s) s := by
    induction h with
    | nil => rfl
    | cons hm hstep _ _ _ ih =>
      simp only [records] at hstep
      obtain ⟨x, -, hstep⟩ := bind_eq_ok.mp hstep
      cases hstep
      exact ih
  cases hr
  exact hstate hearlier

/-! ## 3. The counters of a row -/

/-- The sender and the link tag of a row. -/
def key (o : Observation) : Option FieldValue × Option FieldValue × Option FieldValue :=
  (field o "MAVLINK.system_id", field o "MAVLINK.component_id",
    field o "MAVLINK.mavproxy_link_tag")

def qualified (o : Observation) : Bool :=
  field o "MAVLINK.crc_verified" = some (.i64 1) ∧
    field o "MAVLINK.system_id" ≠ some (byte 0) ∧ field o "MAVLINK.component_id" ≠ some (byte 0)

/-- The latest row before under the same key, if the counting goes on from it. -/
def predecessor (earlier : List Observation) (o : Observation) : Option Observation :=
  if qualified o then ((earlier.filter fun e => key e = key o).getLast?).filter qualified
  else none

/-- A row says how its counter goes on from that of its predecessor: the counter before it, the
step modulo 256 and the name of the step; or, without a predecessor, that it is the first or
cannot be told. -/
def Follows (earlier : List Observation) (o : Observation) : Prop :=
  match predecessor earlier o with
  | some e => ∃ s t : UInt8,
    field e "MAVLINK.packet_sequence" = some (byte s) ∧
      field o "MAVLINK.packet_sequence" = some (byte t) ∧
      field o "MAVLINK.previous_packet_sequence" = some (byte s) ∧
      field o "MAVLINK.recorded_sequence_step_mod256" = some (byte (t - s)) ∧
      field o "MAVLINK.recorded_sequence_relation" = some (.text (stepRelation (t - s)))
  | none =>
    field o "MAVLINK.previous_packet_sequence" = none ∧
      field o "MAVLINK.recorded_sequence_step_mod256" = none ∧
      field o "MAVLINK.recorded_sequence_relation" =
        some (.text (if qualified o then "FIRST" else "UNQUALIFIED_HEADER"))

section Row

variable (sha256 : List UInt8 → Digest) (profile : FamilyProfile) (rc : Bool)
  (r s : Scanned Sequences Framed)

theorem key_row : key (row sha256 profile rc s []) = key (row sha256 profile rc r []) ↔
    s.item.sourceKey (isMavproxy profile) = r.item.sourceKey (isMavproxy profile) := by
  unfold key Framed.sourceKey
  rw [field_systemId, field_systemId, field_componentId, field_componentId,
    field_mavproxyLinkTag, field_mavproxyLinkTag]
  cases isMavproxy profile <;> simp [byte_inj]

theorem qualified_row : qualified (row sha256 profile rc r []) = r.item.qualified := by
  unfold qualified Framed.qualified
  rw [field_systemId, field_componentId, field_crcVerified]
  cases (crcExtra r.item.header.msgid).isSome <;> simp [flag, byte_inj]

/-- The rows under the key of a row are the rows of the records under its key. -/
theorem predecessor_row (rs : List (Scanned Sequences Framed)) :
    predecessor (rs.map fun s => row sha256 profile rc s []) (row sha256 profile rc r []) =
      if r.item.qualified then
        (((rs.filter fun s => s.item.sourceKey (isMavproxy profile) =
          r.item.sourceKey (isMavproxy profile)).getLast?).filter fun s =>
            s.item.qualified).map fun s => row sha256 profile rc s []
      else none := by
  simp only [predecessor, qualified_row, List.filter_map, List.getLast?_map, Option.filter_map,
    Function.comp_def, key_row]

/-- Among what is said about the frame there is nothing about the counters. -/
theorem reported_frameFields {profile : FamilyProfile} {name : String}
    (h : name ∈ sequenceNames) (x : Framed) : reported (x.frameFields profile) name = none := by
  simp only [sequenceNames, List.mem_cons, List.not_mem_nil, or_false] at h
  unfold Framed.frameFields
  rcases h with rfl | rfl | rfl | rfl <;> cases isMavproxy profile <;>
    cases isRecorded profile <;> simp [reported_cons, text, f, u8Field]

/-- What a row says about the counters is found under the reader's own names, since no field of a
message is named like them. -/
theorem field_sequence {name : String} {cs : List Char} (hname : name = String.ofList cs)
    (hcs : ['M', 'A', 'V', 'L', 'I', 'N', 'K', '.'] <+: cs) (hseq : name ∈ sequenceNames) :
    field (row sha256 profile rc r []) name =
      reported (r.item.sequenceFields (r.item.previous (isMavproxy profile) r.before)) name := by
  rw [field_row sha256 profile rc r [] hname hcs, List.append_nil, reported_append,
    reported_frameFields hseq, Option.or_none]

theorem follows_row {earlier later : List (Scanned Sequences Framed)} {bytes : List UInt8}
    (h : Recorded profile bytes (earlier ++ r :: later)) :
    Follows (earlier.map fun s => row sha256 profile rc s []) (row sha256 profile rc r []) := by
  have hstated (name : String) {cs : List Char} (hname : name = String.ofList cs) :=
    field_sequence sha256 profile rc r hname
  have hprevious := hstated "MAVLINK.previous_packet_sequence" rfl (by decide)
    (by simp [sequenceNames])
  have hstep := hstated "MAVLINK.recorded_sequence_step_mod256" rfl (by decide)
    (by simp [sequenceNames])
  have hrelation := hstated "MAVLINK.recorded_sequence_relation" rfl (by decide)
    (by simp [sequenceNames])
  have hbefore := before_eq_sequencesAfter h
  unfold Follows
  rw [predecessor_row, hprevious, hstep, hrelation, qualified_row, Framed.previous, hbefore,
    sequencesAfter_eq]
  generalize (earlier.filter fun s => s.item.sourceKey (isMavproxy profile) =
    r.item.sourceKey (isMavproxy profile)).getLast? = last
  cases hq : r.item.qualified
  · simp [Framed.sequenceFields, Framed.relation, hq, reported_cons, text]
  · cases last with
    | none => simp [Framed.sequenceFields, Framed.relation, hq, reported_cons, text]
    | some s =>
      cases hs : s.item.qualified
      · simp [Option.filter, Framed.sequenceFields, Framed.relation, hq, hs, reported_cons, text]
      · simp only [Option.filter_some, hs, if_true, Option.map_some, Option.bind_some]
        refine ⟨s.item.sequence, r.item.sequence, field_packetSequence sha256 profile rc s [],
          field_packetSequence sha256 profile rc r [], ?_, ?_, ?_⟩ <;>
          simp [Framed.sequenceFields, Framed.relation, reported_cons, text, u8Field, f, byte]

end Row

/-! ## 4. Losslessness -/

section Lossless

variable {sha256 : List UInt8 → Digest} {profile : FamilyProfile} {rc : Bool} {input : Slice}
  {obs : List Observation}

/-- **A plain reading keeps the recording**: the words and the frames of its rows are the bytes,
and every row compares its counter with that of its predecessor.  `hnone` says that no sender is
declared; a reading with a selection leaves the other records out and cannot give them back.
`Follows` names the predecessor by its place among the rows before, as the latest one with the
same ids and tag. -/
theorem readInternal_lossless (hnone : profile.declaredSender = none)
    (h : readInternal sha256 profile input rc = .ok obs) :
    (obs.mapM recordBytes).map List.flatten = some input.bytes ∧
      ∀ earlier o later, obs = earlier ++ o :: later → Follows earlier o := by
  obtain ⟨-, rs, hrecorded, rfl⟩ := (readInternal_none hnone).mp h
  constructor
  · obtain ⟨t, hrun⟩ := hrecorded
    have hbytes := flatMap_records hrun
    rw [List.drop_zero, Nat.sub_zero, List.take_length] at hbytes
    rw [mapM_recordBytes, Option.map_some, ← hbytes, List.flatMap_def]
  · intro earlier o later hobs
    obtain ⟨rs₁, rest, rfl, rfl, hrest⟩ := List.map_eq_append_iff.mp hobs
    obtain ⟨r, rs₂, rfl, rfl, -⟩ := List.map_eq_cons_iff.mp hrest
    exact follows_row sha256 profile rc r hrecorded

set_option maxRecDepth 2000 in
theorem exampleRecording_lossless :
    ∃ obs, readInternal (fun _ => .replicate 32 0) exampleProfile exampleRecording false = .ok obs ∧
      obs.length = 3 ∧
      (obs.mapM recordBytes).map List.flatten = some exampleRecording.bytes ∧
      ∀ earlier o later, obs = earlier ++ o :: later → Follows earlier o := by
  have hcount : (readInternal (fun _ => .replicate 32 0) exampleProfile exampleRecording
      false).map List.length = .ok 3 := by decide
  cases h : readInternal (fun _ => .replicate 32 0) exampleProfile exampleRecording false with
  | error e =>
    rw [h] at hcount
    cases hcount
  | ok obs =>
    rw [h] at hcount
    exact ⟨obs, rfl, Except.ok.inj hcount, readInternal_lossless rfl h⟩

end Lossless

end Musubi.Reference.Tlog
