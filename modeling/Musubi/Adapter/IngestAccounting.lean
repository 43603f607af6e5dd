/-
# Every record is accounted for

`recorded_jsonl.rs`, `ingest`: the timed records are gone through beside the records, and are in
step with them because they are the timed ones in order (`ingestRecord_eq`).  So what becomes of a
record depends on the record alone, and is what `normalize` makes of its line (`normalize_line`).
In `recorded_csv.rs` a row has no time to lose, and is mapped or rejected.

The loop looks as if it could go wrong in one way: it pairs a record with the head of a second
list by comparing indices, and a step out of line would give every later record the time of
another.  The invariant is that the second list holds the timed ones among the records that are
still to come.  As indices ascend, its head is either the record at hand or a later one, and only
in the first case is it taken.

`Outcome` is what can become of a record, in four categories: mapped, rejected, of another type,
without a time.  The report keeps four lists, and a report that is accepted has each index in one
of them, in ascending order (`RecordsAccounted`).

Of the JSON library one thing is assumed, that it reads nothing in an empty text; otherwise a
blank line would be a record that has no line of its own.
-/
import Musubi.Adapter.RecordedCsv
import Musubi.Adapter.RecordedJsonl
import Musubi.Reference.MavlogLines

namespace Musubi.Adapter.RecordedJsonl

open Lib Musubi.Core Reference.Mavlog
open RecordedCsv (pairwise_zipIdx)

variable {serde : SerdeJson} {sha256 : List UInt8 → Digest} {m : Mapping} {source : String}
  {receivedAt : Int64}

/-! ## 1. What becomes of a record -/

inductive Category
  | mapped
  | rejected
  | untimed
  | unmapped
deriving DecidableEq

/-- What becomes of one record, with what the report says of it.  Only a mapped record has an
envelope, and only a rejected one an error. -/
inductive Outcome
  | mapped (bootUs : UInt64) (envelope : EvidenceEnvelope)
  | rejected (error : NormalizeError)
  | untimed
  | unmapped

def Outcome.category : Outcome → Category
  | mapped _ _ => .mapped
  | rejected _ => .rejected
  | untimed => .untimed
  | unmapped => .unmapped

/-- The outcome of a record, from the record alone. -/
def outcomeOf (sha256 : List UInt8 → Digest) (m : Mapping) (source : String) (receivedAt : Int64)
    (record : JsonValue) : Outcome :=
  match bootOf record with
  | none => .untimed
  | some bootUs =>
    if typeOf record ≠ some m.messageType then .unmapped
    else match normalizeRecord sha256 m record source receivedAt with
      | .ok envelope => .mapped bootUs envelope
      | .error error => .rejected error

/-- The indices that a report has in a category. -/
def IngestReport.indices (report : IngestReport) : Category → List ℕ
  | .mapped => report.mapped.map (·.recordIndex)
  | .rejected => report.rejected.map (·.recordIndex)
  | .untimed => report.untimedIndices
  | .unmapped => report.unmappedIndices

def IngestReport.add (report : IngestReport) (index : ℕ) : Outcome → IngestReport
  | .mapped bootUs envelope =>
    { report with mapped := report.mapped ++ [⟨index, bootUs, envelope⟩] }
  | .rejected error => { report with rejected := report.rejected ++ [⟨index, error⟩] }
  | .untimed => { report with untimedIndices := report.untimedIndices ++ [index] }
  | .unmapped => { report with unmappedIndices := report.unmappedIndices ++ [index] }

/-! ## 2. The loop -/

/-- The timed ones of indexed records. -/
def timesOf (items : List (JsonValue × ℕ)) : List TimedRecord :=
  items.filterMap fun (record, index) => (bootOf record).map (TimedRecord.mk index)

theorem timesOf_cons (record : JsonValue) (index : ℕ) (items : List (JsonValue × ℕ)) :
    timesOf ((record, index) :: items) =
      ((bootOf record).map (TimedRecord.mk index)).toList ++ timesOf items := by
  unfold timesOf
  rw [List.filterMap_cons]
  dsimp only
  cases bootOf record <;> simp

/-- **One record** finds its own time at the head, or another's.  The record is the next one, and
all others that wait have larger indices; so a time at the head with this index is its own, and
one with another index is left for the record that it belongs to. -/
theorem ingestRecord_eq (report : IngestReport) {record : JsonValue} {index : ℕ}
    {items : List (JsonValue × ℕ)} (hlater : ∀ item ∈ items, index < item.2) :
    ingestRecord sha256 m source receivedAt ⟨report, timesOf ((record, index) :: items)⟩
      (record, index) =
        ⟨report.add index (outcomeOf sha256 m source receivedAt record), timesOf items⟩ := by
  rw [timesOf_cons]
  unfold ingestRecord outcomeOf
  cases bootOf record with
  | none =>
    have hhead : (timesOf items).head?.filter (·.recordIndex = index) = none := by
      rw [Option.filter_eq_none_iff]
      intro timed htimed
      obtain ⟨⟨record', index'⟩, hmem, hof⟩ := List.mem_filterMap.mp (List.mem_of_head? htimed)
      obtain ⟨bootUs, -, rfl⟩ := Option.map_eq_some_iff.mp hof
      have hlt : index < index' := hlater _ hmem
      rw [decide_eq_true_eq]
      exact Nat.ne_of_gt hlt
    simp only [Option.map_none, Option.toList_none, List.nil_append, hhead]
    rfl
  | some bootUs =>
    simp only [Option.map_some, Option.toList_some, List.singleton_append, List.head?_cons,
      Option.filter_some, decide_true, if_true, List.tail_cons]
    by_cases htype : typeOf record ≠ some m.messageType
    · rw [if_pos htype, if_pos htype]
      rfl
    · rw [if_neg htype, if_neg htype]
      cases normalizeRecord sha256 m record source receivedAt <;> rfl

/-- **The whole loop**: each record has its outcome.  When it ends, no time is left over. -/
theorem foldl_ingestRecord (items : List (JsonValue × ℕ)) :
    ∀ report : IngestReport, items.Pairwise (·.2 < ·.2) →
      items.foldl (ingestRecord sha256 m source receivedAt) ⟨report, timesOf items⟩ =
        ⟨items.foldl (fun report item =>
          report.add item.2 (outcomeOf sha256 m source receivedAt item.1)) report, []⟩ := by
  induction items with
  | nil => exact fun report _ => rfl
  | cons item items ih =>
    intro report hsorted
    obtain ⟨record, index⟩ := item
    obtain ⟨hlater, hsorted⟩ := List.pairwise_cons.mp hsorted
    rw [List.foldl_cons, ingestRecord_eq report hlater, ih _ hsorted, List.foldl_cons]

/-- The report on records that were read. -/
def reportOf (sha256 : List UInt8 → Digest) (m : Mapping) (source : String) (receivedAt : Int64)
    (records : List JsonValue) : IngestReport :=
  records.zipIdx.foldl (fun report item =>
    report.add item.2 (outcomeOf sha256 m source receivedAt item.1))
    ⟨logOf records, [], [], [], []⟩

theorem ingestLog_logOf (records : List JsonValue) :
    ingestLog sha256 m source receivedAt (logOf records) =
      reportOf sha256 m source receivedAt records :=
  congrArg Ingesting.report (foldl_ingestRecord records.zipIdx _ (pairwise_zipIdx records 0))

/-! ## 3. What the report has -/

theorem indices_add (report : IngestReport) (index : ℕ) (outcome : Outcome) (k : Category) :
    (report.add index outcome).indices k =
      report.indices k ++ if outcome.category = k then [index] else [] := by
  cases outcome <;> cases k <;>
    simp [IngestReport.add, IngestReport.indices, Outcome.category]

/-- Indexed records in a category. -/
def inCategory (sha256 : List UInt8 → Digest) (m : Mapping) (source : String) (receivedAt : Int64)
    (k : Category) (item : JsonValue × ℕ) : Bool :=
  (outcomeOf sha256 m source receivedAt item.1).category = k

theorem indices_foldl (items : List (JsonValue × ℕ)) (k : Category) : ∀ report : IngestReport,
    (items.foldl (fun report item =>
      report.add item.2 (outcomeOf sha256 m source receivedAt item.1)) report).indices k =
        report.indices k ++
          (items.filter (inCategory sha256 m source receivedAt k)).map Prod.snd := by
  induction items with
  | nil => exact fun report => (List.append_nil _).symm
  | cons item items ih =>
    intro report
    rw [List.foldl_cons, ih, indices_add, List.filter_cons, List.append_assoc]
    congr 1
    by_cases hk : (outcomeOf sha256 m source receivedAt item.1).category = k
    · rw [if_pos hk, if_pos (show inCategory _ _ _ _ k item = true from decide_eq_true hk)]
      rfl
    · rw [if_neg hk, if_neg (by simpa [inCategory] using hk)]
      rfl

theorem indices_reportOf (records : List JsonValue) (k : Category) :
    (reportOf sha256 m source receivedAt records).indices k =
      (records.zipIdx.filter (inCategory sha256 m source receivedAt k)).map Prod.snd := by
  unfold reportOf
  rw [indices_foldl]
  cases k <;> rfl

/-- **The place of an index** is the category of its record, and an index beyond the records has
none. -/
theorem mem_indices_reportOf {records : List JsonValue} {k : Category} {i : ℕ} :
    i ∈ (reportOf sha256 m source receivedAt records).indices k ↔
      ∃ record, records[i]? = some record ∧
        (outcomeOf sha256 m source receivedAt record).category = k := by
  rw [indices_reportOf, List.mem_map]
  constructor
  · rintro ⟨⟨record, index⟩, hmem, rfl⟩
    obtain ⟨hitem, hk⟩ := List.mem_filter.mp hmem
    exact ⟨record, List.mem_zipIdx_iff_getElem?.mp hitem, of_decide_eq_true hk⟩
  · rintro ⟨record, hrecord, hk⟩
    exact ⟨(record, i), List.mem_filter.mpr ⟨List.mem_zipIdx_iff_getElem?.mpr hrecord,
      decide_eq_true hk⟩, rfl⟩

theorem sorted_indices_reportOf (records : List JsonValue) (k : Category) :
    ((reportOf sha256 m source receivedAt records).indices k).Pairwise (· < ·) := by
  rw [indices_reportOf]
  exact List.pairwise_map.mpr ((pairwise_zipIdx records 0).filter _)

/-- What a report says of an index: that the record is in one of the four lists, with its time and
its envelope, or its error, if it has one. -/
def IngestReport.Says (report : IngestReport) (index : ℕ) : Outcome → Prop
  | .mapped bootUs envelope => ⟨index, bootUs, envelope⟩ ∈ report.mapped
  | .rejected error => ⟨index, error⟩ ∈ report.rejected
  | .untimed => index ∈ report.untimedIndices
  | .unmapped => index ∈ report.unmappedIndices

theorem says_add (report : IngestReport) (index : ℕ) (outcome : Outcome) (index' : ℕ)
    (outcome' : Outcome) : (report.add index outcome).Says index' outcome' ↔
      report.Says index' outcome' ∨ index' = index ∧ outcome = outcome' := by
  cases outcome <;> cases outcome' <;>
    simp [IngestReport.add, IngestReport.Says, eq_comm]

theorem says_foldl (items : List (JsonValue × ℕ)) (index : ℕ) (outcome : Outcome) :
    ∀ report : IngestReport, (items.foldl (fun report item =>
      report.add item.2 (outcomeOf sha256 m source receivedAt item.1)) report).Says index outcome ↔
        report.Says index outcome ∨ ∃ record, (record, index) ∈ items ∧
          outcomeOf sha256 m source receivedAt record = outcome := by
  induction items with
  | nil => intro report; simp
  | cons item items ih =>
    intro report
    obtain ⟨record, index'⟩ := item
    rw [List.foldl_cons, ih, says_add]
    simp only [List.mem_cons, Prod.mk.injEq]
    constructor
    · rintro ((h | ⟨hindex, h⟩) | ⟨record', hmem, h⟩)
      · exact .inl h
      · exact .inr ⟨record, .inl ⟨rfl, hindex⟩, h⟩
      · exact .inr ⟨record', .inr hmem, h⟩
    · rintro (h | ⟨record', ⟨rfl, hindex⟩ | hmem, h⟩)
      · exact .inl (.inl h)
      · exact .inl (.inr ⟨hindex, h⟩)
      · exact .inr ⟨record', hmem, h⟩

/-- **A report says of an index** what its record comes to, and nothing else: the error that it
shows with a rejected record is that of the record. -/
theorem says_reportOf {records : List JsonValue} {i : ℕ} {outcome : Outcome} :
    (reportOf sha256 m source receivedAt records).Says i outcome ↔
      ∃ record, records[i]? = some record ∧
        outcomeOf sha256 m source receivedAt record = outcome := by
  unfold reportOf
  rw [says_foldl]
  simp only [List.mem_zipIdx_iff_getElem?]
  refine or_iff_right fun hnone => ?_
  cases outcome <;> cases hnone

/-! ## 4. A record's own line -/

theorem payloadSize_eq_ok {bytes : List UInt8} {maxBytes : ℕ} :
    payloadSize bytes maxBytes = .ok () ↔ bytes.length ≤ maxBytes := by
  unfold payloadSize
  split
  · next h => exact iff_of_false (fun heq => by cases heq) (by omega)
  · next h => exact iff_of_true rfl (by omega)

/-- What a text begins with is nested no deeper, since the count of open brackets at a place
depends on what comes before it. -/
theorem jsonNesting_prefix {bytes front : List UInt8} {depth : ℕ} (hfront : front <+: bytes)
    (h : jsonNesting bytes depth = .ok ()) : jsonNesting front depth = .ok () := by
  obtain ⟨rest, rfl⟩ := hfront
  unfold jsonNesting at h ⊢
  rw [mapError_eq_ok, rejectIfJsonNestingExceeds, map_eq_ok] at h ⊢
  obtain ⟨s, hs, -⟩ := h
  rw [scan, List.foldlM_append] at hs
  obtain ⟨between, hbetween, -⟩ := bind_eq_ok.mp hs
  exact ⟨between, hbetween, rfl⟩

theorem bounded_eq_ok {bytes : List UInt8} {max : ℕ} {source : String} :
    bounded bytes max source = .ok () ↔
      payloadSize bytes max = .ok () ∧ jsonNesting bytes maxDepth = .ok () := by
  unfold bounded
  rw [mapError_eq_ok, bind_eq_ok]
  constructor
  · rintro ⟨_, hsize, hdepth⟩
    exact ⟨hsize, hdepth⟩
  · rintro ⟨hsize, hdepth⟩
    exact ⟨(), hsize, hdepth⟩

theorem bounded_prefix {bytes front : List UInt8} {max : ℕ} {source : String}
    (hfront : front <+: bytes) (h : bounded bytes max source = .ok ()) :
    bounded front max source = .ok () := by
  obtain ⟨hsize, hdepth⟩ := bounded_eq_ok.mp h
  refine bounded_eq_ok.mpr ⟨?_, jsonNesting_prefix hfront hdepth⟩
  rw [payloadSize_eq_ok] at hsize ⊢
  exact hfront.length_le.trans hsize

/-- **What `normalize` makes of a line** is what the loop makes of its record.  The line alone is
a log of one record: it has no line feed, it is read as that record, and it is within the bounds.
The source and the time of reception are checked once for the whole log and again for the line. -/
theorem normalize_line (hempty : serde.fromStr "" = none) {line : List Char}
    (hfeed : '\n' ∉ line) {record : JsonValue} (hread : ReadsLine serde line record)
    (htimed : bootOf record ≠ none)
    (hbounded : bounded (line.flatMap String.utf8EncodeChar) maxRecordBytes source = .ok ())
    (hcontext : checkContext source receivedAt = .ok ()) :
    normalize serde sha256 m ⟨source, line.flatMap String.utf8EncodeChar, receivedAt⟩ =
      normalizeRecord sha256 m record source receivedAt := by
  unfold normalize
  dsimp only
  rw [hbounded, hcontext, parse_line hempty hfeed hread htimed]
  rfl

/-! ## 5. Reports that are accepted -/

/-- **What an accepted input has come to.** The records are read line by line, the report is the
one that the outcomes make, and the checks of the source, of the time of reception and of the
length of every line have passed. -/
structure Accepted (serde : SerdeJson) (sha256 : List UInt8 → Digest) (m : Mapping)
    (source : String) (receivedAt : Int64) (text : List Char) (report : IngestReport) :
    Prop where
  read : List.Forall₂ (ReadsLine serde) (lines text) report.reader.records
  report_eq : report = reportOf sha256 m source receivedAt report.reader.records
  context : checkContext source receivedAt = .ok ()
  bounded_line : ∀ line ∈ lines text,
    bounded (line.flatMap String.utf8EncodeChar) maxRecordBytes source = .ok ()

theorem reportOf_reader (records : List JsonValue) :
    (reportOf sha256 m source receivedAt records).reader = logOf records := by
  unfold reportOf
  generalize records.zipIdx = items
  have hkeep (report : IngestReport) : (items.foldl (fun report item =>
      report.add item.2 (outcomeOf sha256 m source receivedAt item.1)) report).reader =
        report.reader := by
    induction items generalizing report with
    | nil => rfl
    | cons item items ih =>
      rw [List.foldl_cons, ih]
      cases outcomeOf sha256 m source receivedAt item.1 <;> rfl
  rw [hkeep]

theorem accepted_of_ingest {bytes : List UInt8} {report : IngestReport}
    (h : ingest serde sha256 bytes m source receivedAt = .ok report) :
    ∃ text, fromUtf8 bytes = .ok text ∧
      Accepted serde sha256 m source receivedAt text.toList report := by
  unfold ingest at h
  obtain ⟨_, -, h⟩ := bind_eq_ok.mp h
  obtain ⟨_, hcontext, h⟩ := bind_eq_ok.mp h
  obtain ⟨_, hbounded, h⟩ := bind_eq_ok.mp h
  split at h
  · cases h
  next reader hread =>
  obtain ⟨text, records, htext, hlines, -, rfl⟩ := parse_eq_ok.mp hread
  dsimp only at h
  split at h
  · cases h
  obtain rfl := Except.ok.inj h
  rw [ingestLog_logOf]
  have hrecords : (reportOf sha256 m source receivedAt records).reader.records = records := by
    rw [reportOf_reader, logOf_records]
  refine ⟨text, htext, ⟨?_, ?_, hcontext, fun line hline => ?_⟩⟩
  · rwa [hrecords]
  · rw [hrecords]
  · obtain ⟨piece, hpiece, hfront⟩ := prefix_of_mem_lines hline
    obtain ⟨rest, rfl⟩ := hfront
    have hmem : (line ++ rest).flatMap String.utf8EncodeChar ∈ bytes.splitOn 0x0A := by
      rw [eq_encode_of_fromUtf8 htext]
      have hsplit : (text.toList.flatMap String.utf8EncodeChar).splitOn 0x0A = _ :=
        splitOn_encode (show '\n'.toNat < 0x80 by decide) text.toList
      rw [hsplit]
      exact List.mem_map_of_mem hpiece
    refine bounded_prefix ?_ (forM_eq_ok.mp hbounded _ hmem)
    rw [List.flatMap_append]
    exact List.prefix_append _ _

/-! ## 6. The accounts -/

/-- **How the records of a text are accounted for.** The four lists together hold every index once
(`once`) and none beyond the records; the other fields say by what a record is in its list. -/
structure RecordsAccounted (serde : SerdeJson) (sha256 : List UInt8 → Digest) (m : Mapping)
    (source : String) (receivedAt : Int64) (text : List Char) (report : IngestReport) :
    Prop where
  /-- Each record has a line of its own. -/
  lines_read : List.Forall₂ (ReadsLine serde) (lines text) report.reader.records
  once : ∀ i < report.reader.records.length, ∃! k, i ∈ report.indices k
  no_more : ∀ k, ∀ i ∈ report.indices k, i < report.reader.records.length
  ascending : ∀ k, (report.indices k).Pairwise (· < ·)
  own_time : ∀ r ∈ report.mapped,
    report.reader.records[r.recordIndex]?.bind bootOf = some r.bootUs
  untimed_iff : ∀ i record, report.reader.records[i]? = some record →
    (i ∈ report.untimedIndices ↔ bootOf record = none)
  unmapped_iff : ∀ i record, report.reader.records[i]? = some record →
    (i ∈ report.unmappedIndices ↔ bootOf record ≠ none ∧ typeOf record ≠ some m.messageType)
  mapped_iff : ∀ i record line, report.reader.records[i]? = some record →
    (lines text)[i]? = some line → bootOf record ≠ none → typeOf record = some m.messageType →
      ∀ envelope, (∃ bootUs, ⟨i, bootUs, envelope⟩ ∈ report.mapped) ↔
        normalize serde sha256 m ⟨source, line.flatMap String.utf8EncodeChar, receivedAt⟩ =
          .ok envelope
  rejected_iff : ∀ i record line, report.reader.records[i]? = some record →
    (lines text)[i]? = some line → bootOf record ≠ none → typeOf record = some m.messageType →
      ∀ error, ⟨i, error⟩ ∈ report.rejected ↔
        normalize serde sha256 m ⟨source, line.flatMap String.utf8EncodeChar, receivedAt⟩ =
          .error error

/-- A selected record is mapped or rejected by the mapper. -/
theorem outcomeOf_selected {record : JsonValue} {bootUs : UInt64}
    (htimed : bootOf record = some bootUs) (htype : typeOf record = some m.messageType) :
    outcomeOf sha256 m source receivedAt record =
      match normalizeRecord sha256 m record source receivedAt with
      | .ok envelope => .mapped bootUs envelope
      | .error error => .rejected error := by
  unfold outcomeOf
  rw [htimed]
  exact if_neg (not_not.mpr htype)

/-- The record at an index is the only one that is asked about. -/
theorem Accepted.says_iff {text : List Char} {report : IngestReport}
    (h : Accepted serde sha256 m source receivedAt text report) {i : ℕ} {record : JsonValue}
    (hrecord : report.reader.records[i]? = some record) (outcome : Outcome) :
    report.Says i outcome ↔ outcomeOf sha256 m source receivedAt record = outcome := by
  rw [h.report_eq, says_reportOf]
  constructor
  · rintro ⟨record', hrecord', houtcome⟩
    rw [hrecord] at hrecord'
    rwa [Option.some.inj hrecord']
  · intro houtcome
    exact ⟨record, hrecord, houtcome⟩

theorem Accepted.mem_indices {text : List Char} {report : IngestReport}
    (h : Accepted serde sha256 m source receivedAt text report) {i : ℕ} {k : Category} :
    i ∈ report.indices k ↔ ∃ record, report.reader.records[i]? = some record ∧
      (outcomeOf sha256 m source receivedAt record).category = k := by
  rw [h.report_eq, mem_indices_reportOf, ← h.report_eq]

theorem Accepted.own_line (hempty : serde.fromStr "" = none) {text : List Char}
    {report : IngestReport} (h : Accepted serde sha256 m source receivedAt text report) {i : ℕ}
    {record : JsonValue} {line : List Char} (hrecord : report.reader.records[i]? = some record)
    (hline : (lines text)[i]? = some line) (htimed : bootOf record ≠ none) :
    normalize serde sha256 m ⟨source, line.flatMap String.utf8EncodeChar, receivedAt⟩ =
      normalizeRecord sha256 m record source receivedAt := by
  have hmem := List.mem_of_getElem? hline
  obtain ⟨hi, hget⟩ := List.getElem?_eq_some_iff.mp hrecord
  obtain ⟨hi', hget'⟩ := List.getElem?_eq_some_iff.mp hline
  have hread := (List.forall₂_iff_get.mp h.read).2 i hi' hi
  rw [List.get_eq_getElem, List.get_eq_getElem, hget, hget'] at hread
  exact normalize_line hempty (notMem_of_mem_lines hmem) hread htimed (h.bounded_line _ hmem)
    h.context

theorem Accepted.accounted (hempty : serde.fromStr "" = none) {text : List Char}
    {report : IngestReport} (h : Accepted serde sha256 m source receivedAt text report) :
    RecordsAccounted serde sha256 m source receivedAt text report where
  lines_read := h.read
  once i hi := by
    have hrecord := List.getElem?_eq_getElem hi
    refine ⟨_, h.mem_indices.mpr ⟨_, hrecord, rfl⟩, fun k hk => ?_⟩
    obtain ⟨record, hrecord', rfl⟩ := h.mem_indices.mp hk
    rw [hrecord] at hrecord'
    rw [Option.some.inj hrecord']
  no_more k i hi := by
    obtain ⟨record, hrecord, -⟩ := h.mem_indices.mp hi
    exact (List.getElem?_eq_some_iff.mp hrecord).1
  ascending k := by
    rw [h.report_eq]
    exact sorted_indices_reportOf _ k
  own_time r hr := by
    have hstated : report.Says r.recordIndex (.mapped r.bootUs r.envelope) := hr
    rw [h.report_eq, says_reportOf] at hstated
    obtain ⟨record, hrecord, houtcome⟩ := hstated
    rw [hrecord, Option.bind_some]
    unfold outcomeOf at houtcome
    split at houtcome
    · cases houtcome
    next bootUs hboot =>
    split at houtcome
    · cases houtcome
    split at houtcome
    · rw [hboot, (Outcome.mapped.inj houtcome).1]
    · cases houtcome
  untimed_iff i record hrecord := by
    have hstated := h.says_iff hrecord .untimed
    refine hstated.trans ?_
    unfold outcomeOf
    cases bootOf record with
    | none => simp
    | some bootUs =>
      refine iff_of_false ?_ (by simp)
      dsimp only
      split
      · simp
      split <;> simp
  unmapped_iff i record hrecord := by
    have hstated := h.says_iff hrecord .unmapped
    refine hstated.trans ?_
    unfold outcomeOf
    cases bootOf record with
    | none => simp
    | some bootUs =>
      dsimp only
      split
      · next htype => exact iff_of_true rfl ⟨by simp, htype⟩
      · next htype =>
        refine iff_of_false ?_ fun hboth => htype hboth.2
        split <;> simp
  mapped_iff i record line hrecord hline htimed htype envelope := by
    obtain ⟨bootUs, hboot⟩ := Option.ne_none_iff_exists'.mp htimed
    rw [h.own_line hempty hrecord hline htimed]
    have hstated (b : UInt64) : ⟨i, b, envelope⟩ ∈ report.mapped ↔ _ :=
      h.says_iff hrecord (.mapped b envelope)
    simp only [hstated, outcomeOf_selected hboot htype]
    cases normalizeRecord sha256 m record source receivedAt <;> simp
  rejected_iff i record line hrecord hline htimed htype error := by
    obtain ⟨bootUs, hboot⟩ := Option.ne_none_iff_exists'.mp htimed
    rw [h.own_line hempty hrecord hline htimed]
    have hstated : ⟨i, error⟩ ∈ report.rejected ↔ _ := h.says_iff hrecord (.rejected error)
    rw [hstated, outcomeOf_selected hboot htype]
    cases normalizeRecord sha256 m record source receivedAt <;> simp

/-- **Recorded ingest accounts for what it accepts.** Every record of a log is in one of four
lists, and in order; a mapped one has its own time; and a timed record of the mapping's type is
mapped or rejected as `normalize` does with its own line.  A row of a table is mapped or rejected.
The mapping, the hash, the source and the time of reception are arbitrary; `hempty` is about the
JSON library, which finds no value in an empty text. -/
theorem ingest_accounts (sha256 : List UInt8 → Digest) (hempty : serde.fromStr "" = none) :
    (∀ bytes m source receivedAt report,
      ingest serde sha256 bytes m source receivedAt = .ok report →
        ∃ text, fromUtf8 bytes = .ok text ∧
          RecordsAccounted serde sha256 m source receivedAt text.toList report) ∧
    ∀ bytes timeColumn m source receivedAt options report,
      RecordedCsv.ingestBootCsv sha256 bytes timeColumn m source receivedAt options = .ok report →
        RecordedCsv.RowsAccounted sha256 m source receivedAt report := by
  refine ⟨fun bytes m source receivedAt report h => ?_,
    fun bytes timeColumn m source receivedAt options report h => ?_⟩
  · obtain ⟨text, htext, haccepted⟩ := accepted_of_ingest h
    exact ⟨text, htext, haccepted.accounted hempty⟩
  · exact RecordedCsv.rowsAccounted h

/-! ## 7. A log and a table -/

/-- A position, and a record without a time. -/
def exampleLines : List (String × JsonValue) :=
  [(r#"{"meta":{"type":"G"},"data":{"TimeUS":7,"a":0}}"#,
      .object [("data", .object [("TimeUS", .number (.posInt 7)), ("a", .number (.posInt 0))]),
        ("meta", .object [("type", .string "G")])]),
    (r#"{"meta":{"type":"F"},"data":{}}"#,
      .object [("data", .object []), ("meta", .object [("type", .string "F")])])]

/-- What the JSON library reads of two lines. -/
def exampleJson : SerdeJson where
  fromSlice _ := none
  fromStr text := exampleLines.lookup text
  display _ := ""

def exampleLog : List UInt8 :=
  (String.intercalate "\n" (exampleLines.map Prod.fst)).toList.map fun c => .ofNat c.toNat

/-- A row with a position, and one without. -/
def exampleTable : List UInt8 := "t,a\n1,0\n2,\n".toList.map fun c => .ofNat c.toNat

def exampleMapping : Mapping where
  messageType := "G"
  latitudeField := "a"
  longitudeField := "a"
  altitudeField := "a"
  domain := .air
  fix := none
  sourceChannelPath := none

def exampleDigest (_ : List UInt8) : Digest := Vector.replicate 32 0

theorem ingest_accounts_example :
    (∃ text report, RecordsAccounted exampleJson exampleDigest exampleMapping "u" 1 text report ∧
      report.indices .mapped = [0] ∧ report.indices .untimed = [1]) ∧
    ∃ report, RecordedCsv.RowsAccounted exampleDigest exampleMapping "u" 1 report ∧
      report.mapped.map (·.recordIndex) = [0] ∧ report.rejected.map (·.recordIndex) = [1] := by
  have haccounts := @ingest_accounts exampleJson exampleDigest (by decide)
  have hlog : (ingest exampleJson exampleDigest exampleLog exampleMapping "u" 1).toOption.map
      (fun report => (report.indices .mapped, report.indices .untimed)) = some ([0], [1]) := by
    decide +kernel
  have htable : (RecordedCsv.ingestBootCsv exampleDigest exampleTable "t" exampleMapping "u" 1
      {}).toOption.map (fun report => (report.mapped.map (·.recordIndex),
        report.rejected.map (·.recordIndex))) = some ([0], [1]) := by
    decide +kernel
  obtain ⟨report, hreport, hindices⟩ := Option.map_eq_some_iff.mp hlog
  obtain ⟨report', hreport', hindices'⟩ := Option.map_eq_some_iff.mp htable
  obtain ⟨text, -, haccounted⟩ :=
    haccounts.1 _ _ _ _ _ (ok_of_mem_toOption (Option.mem_toList.mpr hreport))
  refine ⟨⟨text.toList, report, haccounted, (Prod.mk.inj hindices).1, (Prod.mk.inj hindices).2⟩,
    report', ?_, (Prod.mk.inj hindices').1, (Prod.mk.inj hindices').2⟩
  exact haccounts.2 _ _ _ _ _ _ _ (ok_of_mem_toOption (Option.mem_toList.mpr hreport'))

end Musubi.Adapter.RecordedJsonl
