/-
# Waveform records

`reference-readers/src/mseed_waveform.rs`: what the reference reader makes of the records of a
miniSEED file.  Every sample is an observation with the header of its record, and every record
is accounted for byte by byte: its fixed header, its blockettes, the gap behind them and its
data.

The account is right for every record whose data begin behind the fixed header or nowhere.  A
record may also say that its data begin within the header, if it has no samples: the decoder
then takes it to have no data, but the account counts the rest of the record as data, and the
header and the blockettes a second time.
-/
import Mathlib.Data.List.Destutter
import Mathlib.Data.List.Sort
import Musubi.Miniseed2.SampleTimes
import Musubi.Northbound.Format
import Musubi.Reference.Reader

namespace Musubi.Reference.MseedWaveform

open Lib Lib.Checked Musubi.Core Miniseed2

/-! ## 1. Accounting -/

structure UnknownBlockette where
  recordIndex : ℕ
  recordOffset : ℕ
  offset : ℕ
  kind : UInt16
  raw : List UInt8
deriving DecidableEq

structure RecordAccounting where
  recordIndex : ℕ
  recordOffset : ℕ
  sourceId : String
  sequence : String
  recordLengthBytes : ℕ
  sampleCountDeclared : ℕ
  sampleCountDecoded : ℕ
  gapToPreviousUs : Option ℤ
  blocketteTypes : List UInt16
  blocketteBytes : ℕ
  reservedGapBytes : ℕ
  dataBeginOffset : ℕ
  unknownBlocketteTypes : List UInt16
  unknownBlocketteBytes : ℕ
  steimSurplusDiffs : ℕ
  stale : Bool
deriving DecidableEq

def RecordAccounting.dataBytes (a : RecordAccounting) : ℕ :=
  if a.dataBeginOffset = 0 then 0 else a.recordLengthBytes - a.dataBeginOffset

def RecordAccounting.bytesBalanced (a : RecordAccounting) : Bool :=
  48 + a.blocketteBytes + a.reservedGapBytes + a.dataBytes = a.recordLengthBytes

def knownBlockettes : List UInt16 := [1000, 1001]

/-- The blockettes of a record that say nothing about its decoding. -/
def unknownOf (record : Record) : List Blockette :=
  record.blockettes.filter (·.kind ∉ knownBlockettes)

/-- Data-quality flag bit 4. -/
def missingOrPadded (record : Record) : Bool := record.dataQualityFlags &&& 0x10 ≠ 0

def bytesOf (blockettes : List Blockette) : ℕ := (blockettes.map (·.raw.length)).sum

def account (recordIndex : ℕ) (record : Record) (gapToPreviousUs : Option ℤ) :
    RecordAccounting where
  recordIndex := recordIndex
  recordOffset := record.offset
  sourceId := record.sourceId
  sequence := record.sequence
  recordLengthBytes := record.recordLength
  sampleCountDeclared := record.sampleCountDeclared
  sampleCountDecoded := record.sampleCountDecoded
  gapToPreviousUs := gapToPreviousUs
  blocketteTypes := record.blockettes.map (·.kind)
  blocketteBytes := bytesOf record.blockettes
  reservedGapBytes :=
    (if record.dataBeginOffset = 0 then record.recordLength else record.dataBeginOffset) -
      (48 + bytesOf record.blockettes)
  dataBeginOffset := record.dataBeginOffset
  unknownBlocketteTypes := (unknownOf record).map (·.kind)
  unknownBlocketteBytes := bytesOf (unknownOf record)
  steimSurplusDiffs := record.steimSurplusDiffs
  stale := missingOrPadded record

/-! ## 2. Observations -/

/-- `2024-001T00:00:15.7450`. -/
def toSeedString (t : BTime) : String :=
  String.ofList (Northbound.zeroPad 4 t.year.toNat ++ '-' ::
    (Northbound.zeroPad 3 t.dayOfYear.toNat ++ 'T' :: (Northbound.zeroPad 2 t.hour.toNat ++ ':' ::
      (Northbound.zeroPad 2 t.minute.toNat ++ ':' :: (Northbound.zeroPad 2 t.second.toNat ++ '.' ::
        Northbound.zeroPad 4 t.tenthMs.toNat)))))

def encodingName (record : Record) : String :=
  if record.encoding = steim1 then "steim1"
  else if record.encoding = steim2 then "steim2"
  else "unsupported"

def sampleFields (record : Record) (recordIndex sampleIndex : ℕ) (value : Int32)
    (sampleTimeUnixUs : ℤ) (gapToPreviousUs : Option ℤ) : Fields :=
  let int (v : ℤ) : FieldValue := .i64 (Int64.ofInt v)
  let flag (b : Bool) : FieldValue := int (if b then 1 else 0)
  [("fdsn_source_id", .text record.sourceId),
    ("network", .text record.network),
    ("station", .text record.station),
    ("location", .text record.location),
    ("channel_code", .text record.channel),
    ("record_sequence", .text record.sequence),
    ("data_quality_indicator", .text (String.singleton record.quality)),
    ("record_index", int recordIndex),
    ("record_start_unix_us", int record.startUnixUs),
    ("record_start_unix_us_raw", int record.startUnixUsRaw),
    ("record_start_seed", .text (toSeedString record.start)),
    ("sample_index", int sampleIndex),
    ("sample_value_count", int value.toInt),
    ("sample_time_unix_us", int sampleTimeUnixUs),
    ("sample_period_us", int record.samplePeriodUs),
    ("sample_rate_factor", int record.rateFactor.toInt),
    ("sample_rate_multiplier", int record.rateMultiplier.toInt),
    ("sample_count_declared", int record.sampleCountDeclared),
    ("encoding_code", int record.encoding.toNat),
    ("encoding_name", .text (encodingName record)),
    ("record_length_bytes", int record.recordLength),
    ("activity_flags", int record.activityFlags.toNat),
    ("io_clock_flags", int record.ioClockFlags.toNat),
    ("data_quality_flags", int record.dataQualityFlags.toNat),
    ("clock_locked_flag", flag (record.ioClockFlags &&& 0x20 ≠ 0)),
    ("time_tag_questionable_flag", flag (record.dataQualityFlags &&& 0x80 ≠ 0)),
    ("timing_quality_percent",
      (record.timingQualityPercent.map fun q => int q.toNat).getD .blank),
    ("blockette1001_microsecond",
      (record.microsecondOffset.map fun m => int m.toInt).getD .blank),
    ("time_correction_ticks", int record.timeCorrectionTicks.toInt),
    ("time_correction_applied_flag", flag record.timeCorrectionApplied),
    ("gap_to_previous_us", (gapToPreviousUs.map int).getD .blank)]

variable (sha256 : List UInt8 → Digest)

def observation (tUs : ℤ) (fields : Fields) (stale : Bool) : Observation :=
  let tMs := Int64.ofInt (tUs / 1000)
  { tMs := tMs
    clockBasis := .unknown
    timeConfidence := .ofRat 0
    sourceRole := .recordedExport
    channel := .onboard
    digest := observationDigest sha256 tMs .onboard fields
    fields := fields
    stale := stale
    tBootUs := none
    anchorUnixUs := none
    wallMs := none }

/-- The observations of a record, one a sample. -/
def observationsOf (recordIndex : ℕ) (record : Record) (gapToPreviousUs : Option ℤ) :
    Checked ReadError (List Observation) :=
  record.samples.zipIdx.mapM fun (value, sampleIndex) => do
    let tUs ← record.sampleTimeUnixUs sampleIndex
    return observation sha256 tUs
      (sampleFields record recordIndex sampleIndex value tUs gapToPreviousUs)
      (missingOrPadded record)

/-! ## 3. `read_report` -/

structure ReadReport where
  observations : List Observation
  records : List Record
  accounting : List RecordAccounting
  totalSamplesDecoded : ℕ
  streams : List String
  unknownBlockettes : List UnknownBlockette
  unknownBlocketteTypes : List UInt16
  unknownBlocketteBytes : ℕ

/-- What the loop over the records has gathered. -/
structure ReadState where
  streams : List String := []
  accounting : List RecordAccounting := []
  unknownBlockettes : List UnknownBlockette := []
  observations : List Observation := []
  previousEnd : BTreeMap String ℤ := .empty

def readRecord (s : ReadState) (indexed : Record × ℕ) : Checked ReadError ReadState := do
  let (record, recordIndex) := indexed
  let sourceId := record.sourceId
  let gapToPreviousUs ← (s.previousEnd.get? sourceId).mapM fun stop =>
    i64 (record.startUnixUs - stop)
  let stop ← i64 (record.startUnixUs + (← record.nominalSpanUs))
  let observations ← observationsOf sha256 recordIndex record gapToPreviousUs
  return {
    streams := if sourceId ∈ s.streams then s.streams else s.streams ++ [sourceId]
    accounting := s.accounting ++ [account recordIndex record gapToPreviousUs]
    unknownBlockettes := s.unknownBlockettes ++ (unknownOf record).map fun b =>
      { recordIndex := recordIndex
        recordOffset := record.offset
        offset := b.offset
        kind := b.kind
        raw := b.raw }
    observations := s.observations ++ observations
    previousEnd := s.previousEnd.insert sourceId stop }

def malformed (error : ParseError) : ReadError := .malformed error.offset error.display

def readReport (bytes : List UInt8) : Checked ReadError ReadReport := do
  let records ← mapErr malformed (parse bytes)
  let s ← records.zipIdx.foldlM (readRecord sha256) {}
  return {
    observations := s.observations
    records := records
    accounting := s.accounting
    totalSamplesDecoded := s.observations.length
    streams := s.streams
    unknownBlockettes := s.unknownBlockettes
    unknownBlocketteTypes :=
      ((s.unknownBlockettes.map UnknownBlockette.kind).insertionSort (· ≤ ·)).destutter (· ≠ ·)
    unknownBlocketteBytes := (s.unknownBlockettes.map (·.raw.length)).sum }

/-! ## 4. One account -/

/-- The header, the blockettes and what lies between them end before the data. -/
theorem bytesOf_le {bytes : List UInt8} {r : Record} (h : RecordOf bytes r) :
    48 + bytesOf r.blockettes ≤ r.dataStart := by
  obtain ⟨a, b, ha, hend⟩ := h.chained
  have hne : r.blockettes ≠ [] := by
    obtain ⟨x, hx, -⟩ := h.declared
    rintro hnil
    rw [hnil] at hx
    cases hx
  obtain ⟨last, hlast, hstop⟩ := hend.exists_stop hne
  have hle := h.beforeData last hlast
  have hsum := hend.sum_lengths fun x _ => Nat.le_add_right x.offset x.raw.length
  have hlength : (r.blockettes.map fun x => x.stop - x.offset) =
      r.blockettes.map (·.raw.length) :=
    List.map_congr_left fun x _ => Nat.add_sub_cancel_left x.offset x.raw.length
  rw [hlength] at hsum
  unfold bytesOf
  unfold fixedHeader at ha
  omega

/-- **The account of a record adds up** exactly when its data begin behind the fixed header, or
nowhere. -/
theorem bytesBalanced_account {bytes : List UInt8} {r : Record} (h : RecordOf bytes r)
    (recordIndex : ℕ) (gapToPreviousUs : Option ℤ) :
    (account recordIndex r gapToPreviousUs).bytesBalanced = true ↔
      r.dataBeginOffset = 0 ∨ fixedHeader ≤ r.dataBeginOffset := by
  have hle := bytesOf_le h
  have hstart := h.dataStart_le
  have hlong : 48 + bytesOf r.blockettes ≤ r.recordLength := hle.trans hstart
  unfold Record.dataStart at hle hstart
  have hbalanced : (account recordIndex r gapToPreviousUs).bytesBalanced = true ↔
      48 + bytesOf r.blockettes +
        ((if r.dataBeginOffset = 0 then r.recordLength else r.dataBeginOffset) -
          (48 + bytesOf r.blockettes)) +
        (if r.dataBeginOffset = 0 then 0 else r.recordLength - r.dataBeginOffset) =
      r.recordLength := decide_eq_true_iff
  rw [hbalanced]
  unfold fixedHeader at *
  by_cases hnone : r.dataBeginOffset = 0
  · rw [if_pos hnone, if_pos hnone]
    omega
  · rw [if_neg hnone, if_neg hnone]
    by_cases hbehind : 48 ≤ r.dataBeginOffset
    · rw [if_pos hbehind] at hle hstart
      omega
    · -- the header and the blockettes are longer than the offset, so the gap is empty
      omega

/-! ## 5. All accounts -/

/-- A record of an accepted input: it is what its own header and blockettes say, and its times are
those of the header. -/
structure Accepted (bytes : List UInt8) (r : Record) : Prop where
  record : RecordOf bytes r
  header : HeaderOf bytes r

theorem Accepted.spanFits {bytes : List UInt8} {r : Record} (h : Accepted bytes r) :
    SpanFits r := by
  obtain ⟨count, -, hcount⟩ := h.record.sampled
  exact h.header.toSpanFits (hcount ▸ count.toNat_lt)

/-- What holds after the records `done`: each has its account and its observations, and of every
source the end of some record is kept, against which the gap before the next one is measured. -/
structure ReadInv (done : List Record) (s : ReadState) : Prop where
  accounts : List.Forall₂
    (fun r a => ∃ recordIndex gapToPreviousUs, a = account recordIndex r gapToPreviousUs)
    done s.accounting
  counted : s.observations.length = (done.map (·.sampleCountDecoded)).sum
  ends : ∀ id stop, s.previousEnd.get? id = some stop →
    ∃ r ∈ done, r.sourceId = id ∧ stop = r.startUnixUs + r.samplePeriodUs * r.sampleCountDeclared

theorem safe_observationsOf {bytes : List UInt8} {r : Record} (h : Accepted bytes r)
    (recordIndex : ℕ) (gapToPreviousUs : Option ℤ) :
    Safe (observationsOf sha256 recordIndex r gapToPreviousUs) fun observations =>
      observations.length = r.sampleCountDecoded := by
  have hdecoded := h.record.decoded
  refine (safe_mapM _ fun p hp => ?_).mono fun observations hlen => ?_
  · have hlt : p.2 < r.sampleCountDeclared := by
      rw [← hdecoded.1]
      have := List.snd_lt_of_mem_zipIdx hp
      omega
    simp only [sampleTimeUnixUs_eq h.spanFits hlt]
    exact trivial
  · rw [hlen, List.length_zipIdx, hdecoded.1, hdecoded.2]

/-- The gap to a record of the same source that is not later fits. -/
theorem gap_mem {r previous : Record} (hr : SpanFits r) (hprevious : SpanFits previous)
    (hle : previous.startUnixUs ≤ r.startUnixUs) :
    InI64 (r.startUnixUs -
      (previous.startUnixUs + previous.samplePeriodUs * previous.sampleCountDeclared)) := by
  have hstart := hr.start
  have hstart' := hprevious.start
  have hspan := hprevious.span
  have hnonneg := hprevious.span_nonneg
  unfold InI64 at *
  omega

/-- **One record.** -/
theorem safe_readRecord {bytes : List UInt8} {done : List Record} {s : ReadState} {r : Record}
    (recordIndex : ℕ) (hs : ReadInv done s) (hdone : ∀ r ∈ done, Accepted bytes r)
    (hr : Accepted bytes r)
    (hle : ∀ previous ∈ done, previous.sourceId = r.sourceId →
      previous.startUnixUs ≤ r.startUnixUs) :
    Safe (readRecord sha256 s (r, recordIndex)) (ReadInv (done ++ [r])) := by
  simp only [readRecord]
  have hgap : Safe ((s.previousEnd.get? r.sourceId).mapM fun stop =>
      (i64 (r.startUnixUs - stop) : Checked ReadError ℤ)) fun _ => True := by
    cases hget : s.previousEnd.get? r.sourceId with
    | none => exact trivial
    | some stop =>
      obtain ⟨previous, hmem, hid, rfl⟩ := hs.ends _ _ hget
      have hfits := gap_mem hr.spanFits (hdone previous hmem).spanFits (hle previous hmem hid)
      simp only [Option.mapM_some, i64_eq hfits]
      exact trivial
  refine hgap.bind fun gapToPreviousUs _ => ?_
  rw [nominalSpanUs_eq hr.spanFits, ok_bind, i64_eq hr.spanFits.stop, ok_bind]
  refine (safe_observationsOf sha256 hr recordIndex gapToPreviousUs).bind
    fun observations hlen => safe_pure ⟨?_, ?_, ?_⟩
  · exact List.rel_append hs.accounts (.cons ⟨recordIndex, gapToPreviousUs, rfl⟩ .nil)
  · simp only [List.length_append, hs.counted, hlen, List.map_append, List.sum_append,
      List.map_cons, List.map_nil, List.sum_singleton]
  · intro id stop hget
    rw [BTreeMap.get?_insert] at hget
    split at hget
    · next hid =>
      exact ⟨r, List.mem_append_right _ (List.mem_singleton_self r), hid,
        (Option.some.inj hget).symm⟩
    · obtain ⟨previous, hmem, hprevious⟩ := hs.ends id stop hget
      exact ⟨previous, List.mem_append_left _ hmem, hprevious⟩

/-- **All records**, one after another. -/
theorem safe_readRecords {bytes : List UInt8} (rest : List Record) :
    ∀ {done : List Record} {s : ReadState} (recordIndex : ℕ), ReadInv done s →
      (∀ r ∈ done ++ rest, Accepted bytes r) →
      ((done ++ rest).Pairwise fun r r' =>
        r.sourceId = r'.sourceId → r.startUnixUs ≤ r'.startUnixUs) →
      Safe ((rest.zipIdx recordIndex).foldlM (readRecord sha256) s)
        (ReadInv (done ++ rest)) := by
  induction rest with
  | nil =>
    intro done s recordIndex hs _ _
    rw [List.append_nil]
    exact safe_pure hs
  | cons r rest ih =>
    intro done s recordIndex hs haccepted hmonotone
    rw [List.zipIdx_cons, List.foldlM_cons]
    have hlast := (List.pairwise_append.mp hmonotone).2.2
    refine (safe_readRecord sha256 recordIndex hs
      (fun r hr => haccepted r (List.mem_append_left _ hr))
      (haccepted r (List.mem_append_right _ List.mem_cons_self))
      fun previous hmem hid => hlast previous hmem r List.mem_cons_self hid).bind fun s' hs' => ?_
    rw [List.append_cons] at haccepted hmonotone ⊢
    exact ih (recordIndex + 1) hs' haccepted hmonotone

/-- **What the reader returns.**  It accepts what the decoder accepts, and has one account of
each record and one observation of each sample. -/
theorem safe_readReport (bytes : List UInt8) :
    Safe (readReport sha256 bytes) fun report =>
      (Tiles bytes report.records bytes.length ∧ ∀ r ∈ report.records, Accepted bytes r) ∧
        List.Forall₂
          (fun r a => ∃ recordIndex gapToPreviousUs, a = account recordIndex r gapToPreviousUs)
          report.records report.accounting ∧
        report.totalSamplesDecoded = (report.records.map (·.sampleCountDecoded)).sum := by
  unfold readReport
  refine (safe_parse bytes).mapErr.bind fun records hrecords => ?_
  obtain ⟨-, htiles, hheaders⟩ := hrecords
  have haccepted : ∀ r ∈ records, Accepted bytes r := fun r hr =>
    ⟨htiles.each r hr, hheaders r hr⟩
  have hstart : ReadInv [] {} := ⟨.nil, rfl, fun _ _ h => nomatch h⟩
  refine (safe_readRecords sha256 records 0 hstart haccepted htiles.monotone).bind
    fun s hs => safe_pure ⟨⟨htiles, haccepted⟩, hs.accounts, hs.counted⟩

/-- What holds of the second list, element by element, as another fact does of the first. -/
theorem forall_mem_iff_of_forall₂ {α β : Type} {R : α → β → Prop} {P : β → Prop} {Q : α → Prop}
    {l : List α} {l' : List β} (h : List.Forall₂ R l l')
    (hPQ : ∀ a ∈ l, ∀ b, R a b → (P b ↔ Q a)) : (∀ b ∈ l', P b) ↔ ∀ a ∈ l, Q a := by
  induction h with
  | nil => exact iff_of_true (fun _ h => nomatch h) fun _ h => nomatch h
  | cons hab _ ih =>
    rw [List.forall_mem_cons, List.forall_mem_cons, hPQ _ List.mem_cons_self _ hab,
      ih fun a ha => hPQ a (List.mem_cons_of_mem _ ha)]

/-- **The accounts of an accepted input.**  They add up, each to the length of its record and
all to the length of the input, exactly when no header says that its data begin within the 48
bytes of the header. -/
theorem bytesBalanced_iff (bytes : List UInt8) (report : ReadReport)
    (h : readReport sha256 bytes = .ok report) :
    ((∀ a ∈ report.accounting, a.bytesBalanced = true) ∧
        (report.accounting.map (·.recordLengthBytes)).sum = bytes.length) ↔
      ∀ r ∈ report.records, ∀ n, be16 bytes (r.offset + 44) = .ok n →
        n.toNat = 0 ∨ 48 ≤ n.toNat := by
  have hsafe := safe_readReport sha256 bytes
  rw [h] at hsafe
  obtain ⟨⟨htiles, haccepted⟩, haccounts, -⟩ := hsafe
  have hsum : (report.accounting.map (·.recordLengthBytes)).sum = bytes.length := by
    have hlengths := htiles.endToEnd.sum_lengths fun r _ => Nat.le_add_right _ _
    have hmap : report.accounting.map (·.recordLengthBytes) =
        report.records.map fun r => r.offset + r.recordLength - r.offset := by
      rw [← List.forall₂_eq_eq_eq, List.forall₂_map_left_iff, List.forall₂_map_right_iff]
      refine haccounts.flip.imp fun a r ⟨_, _, ha⟩ => ?_
      rw [ha, Nat.add_sub_cancel_left]
      rfl
    rw [hmap]
    omega
  rw [and_iff_left hsum]
  refine forall_mem_iff_of_forall₂ haccounts fun r hr a ⟨recordIndex, gapToPreviousUs, ha⟩ => ?_
  obtain ⟨m, hm, hbegin⟩ := (haccepted r hr).header.dataBegin
  rw [ha, bytesBalanced_account (haccepted r hr).record, hbegin, hm]
  constructor
  · intro hm n hn
    cases hn
    exact hm
  · intro h
    exact h m rfl

/-- A record without samples that says that its data begin at its byte 20. -/
def dataInHeader : List UInt8 :=
  "000001D STA  00BHZNT".toList.map (fun c => UInt8.ofNat c.toNat) ++
    [0x07, 0xE8, 0x00, 0x01, 0, 0, 0, 0, 0, 0, 0x00, 0x00, 0x00, 0x01, 0x00, 0x01,
      0, 0, 0, 2, 0, 0, 0, 0, 0x00, 0x14, 0x00, 0x30,
      0x03, 0xE8, 0x00, 0x38, 10, 1, 8, 0, 0x03, 0xE7, 0x00, 0x00] ++
    List.replicate 196 0

/-- Its account has 40 bytes too many: the data offset points into the header, and these bytes are
counted there and as data. -/
theorem dataInHeader_unbalanced : ∃ report,
    readReport Sha256.hash dataInHeader = .ok report ∧
    ¬ ∀ a ∈ report.accounting, a.bytesBalanced = true := by
  have hok : ((readReport Sha256.hash dataInHeader).toOption.map fun report =>
      report.accounting.all (·.bytesBalanced)) = some false := by
    decide +kernel
  cases h : readReport Sha256.hash dataInHeader with
  | error e =>
    rw [h] at hok
    cases hok
  | ok report =>
    rw [h] at hok
    refine ⟨report, rfl, fun hall => ?_⟩
    have htrue := List.all_eq_true.mpr hall
    exact Bool.noConfusion (htrue.symm.trans (Option.some.inj hok))

/-- A record of two samples is accounted for. -/
theorem bytesBalanced_twoSamples : ∃ report,
    readReport Sha256.hash twoSamples = .ok report ∧
    ∀ a ∈ report.accounting, a.bytesBalanced = true := by
  have hok : ((readReport Sha256.hash twoSamples).toOption.map fun report =>
      report.records.all fun r => (be16 twoSamples (r.offset + 44)).toOption = some 64) =
        some true := by
    decide +kernel
  cases h : readReport Sha256.hash twoSamples with
  | error e =>
    rw [h] at hok
    cases hok
  | ok report =>
    rw [h] at hok
    refine ⟨report, rfl, ((bytesBalanced_iff Sha256.hash twoSamples report h).mpr ?_).1⟩
    intro r hr n hn
    have hword := of_decide_eq_true (List.all_eq_true.mp (Option.some.inj hok) r hr)
    rw [hn] at hword
    obtain rfl : n = 64 := Option.some.inj hword
    exact Or.inr (by decide)

end Musubi.Reference.MseedWaveform
