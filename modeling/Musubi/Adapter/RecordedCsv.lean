/-
# Recorded tables

`adapter-spi/src/recorded_csv.rs`: a table of counters since boot goes through the mapper of
decoded records, each row as a record that is made of its columns.  A row is mapped or rejected,
under its own index.

What a table can be refused for is settled before the loop: its length, its columns, the source
and the time of reception, and a mapping whose channel is a path or whose columns are missing or
in another unit.  So a table is accepted as a whole or not at all, and a rejected row is an entry
of the report and no error of the table.

A row has every column of the header and a time, so of the four categories of a log two are left.
-/
import Musubi.Adapter.RecordedJsonl
import Musubi.DecodedCsv

namespace Musubi.Adapter.RecordedCsv

open Lib Musubi.Core Reference.Mavlog RecordedJsonl
open DecodedCsv (Table Row Column ParseOptions parseWithOptions)

/-! ## 1. Bounds -/

def maxRecords : ℕ := 100000

def failure (source reason : String) : NormalizeError :=
  invalid source "recorded-csv/v1" reason reason

structure IngestReport where
  table : Table
  sourceCsv : String
  mapped : List MappedRecord
  rejected : List RejectedRecord

/-- The lines are short enough, and few enough. -/
def withinBounds (text : String) : Bool :=
  (lines text.toList).all (fun line => (String.ofList line).utf8ByteSize ≤ maxRecordBytes) &&
    (lines text.toList).length ≤ maxRecords + 1

/-- The source and the time of reception, even if every row will be rejected. -/
def checkContext (source : String) (receivedAt : Int64) : Except NormalizeError Unit := do
  (quarantineStrField "identifier" source 256).mapError fun _ => failure source "invalid-source"
  if source.isEmpty ∨ ';' ∈ source.toList ∨ receivedAt ≤ 0 then
    .error (failure source "invalid-source-or-received-at")
  else .ok ()

/-- A channel of a flat table is one of its columns. -/
def checkChannelPath (m : Mapping) (source : String) : Except NormalizeError Unit :=
  if m.sourceChannelPath.any fun path => path.length ≠ 2 ∨ path.head? ≠ some "data" then
    .error (failure source "invalid-csv-channel-path")
  else .ok ()

/-- A column of positions, whose unit is the mapping's where it declares one. -/
def checkColumn (table : Table) (source field unit : String) : Except NormalizeError Unit :=
  match table.columns.find? (·.name = field) with
  | none => .error (failure source "missing-position-column")
  | some column =>
    if column.unit.any (· ≠ unit) then .error (failure source "position-unit-mismatch") else .ok ()

/-! ## 2. Rows as records -/

def cellJson : DecodedCsv.Value → JsonValue
  | .integer v => .number (if 0 ≤ v then .posInt v.toUInt64 else .negInt v)
  | .number v => if v.isFinite then .number (.float v) else .null
  | .text s => .string s
  | .blank => .null

def rowData (columns : List Column) (row : Row) : List (String × JsonValue) :=
  (columns.zip row.values).foldl (fun data cell =>
    BTreeMap.insertEntry cell.1.name (cellJson cell.2) data) []

/-- The record of a row, with its keys in order. -/
def rowRecord (m : Mapping) (columns : List Column) (row : Row) : JsonValue :=
  .object [("data", .object (rowData columns row)),
    ("meta", .object [("type", .string m.messageType)])]

/-! ## 3. `ingest_boot_csv` -/

variable (sha256 : List UInt8 → Digest)

def normalizeRow (m : Mapping) (columns : List Column) (row : Row) (source : String)
    (receivedAt : Int64) : Except NormalizeError EvidenceEnvelope :=
  normalizeRecord sha256 m (rowRecord m columns row) source receivedAt

def ingestRow (m : Mapping) (columns : List Column) (source : String) (receivedAt : Int64)
    (s : List MappedRecord × List RejectedRecord) (item : Row × ℕ) :
    List MappedRecord × List RejectedRecord :=
  let (row, index) := item
  match normalizeRow sha256 m columns row source receivedAt with
  | .ok envelope => (s.1 ++ [⟨index, .ofNat row.bootUs, envelope⟩], s.2)
  | .error error => (s.1, s.2 ++ [⟨index, error⟩])

def ingestTable (m : Mapping) (source : String) (receivedAt : Int64) (text : String)
    (table : Table) : Except NormalizeError IngestReport := do
  checkChannelPath m source
  checkColumn table source m.latitudeField "deg"
  checkColumn table source m.longitudeField "deg"
  checkColumn table source m.altitudeField "m"
  let (mapped, rejected) :=
    table.rows.zipIdx.foldl (ingestRow sha256 m table.columns source receivedAt) ([], [])
  return ⟨table, text, mapped, rejected⟩

def ingestBootCsv (bytes : List UInt8) (timeColumn : String) (m : Mapping) (source : String)
    (receivedAt : Int64) (options : ParseOptions) : Except NormalizeError IngestReport :=
  if maxInputBytes < bytes.length then .error (failure source "input-oversize")
  else match fromUtf8 bytes with
    | .error _ => .error (failure source "invalid-csv")
    | .ok text =>
      if !withinBounds text then .error (failure source "csv-line-or-row-bound")
      else do
        checkContext source receivedAt
        match parseWithOptions bytes timeColumn options with
        | .error _ => .error (failure source "invalid-csv")
        | .ok table => ingestTable sha256 m source receivedAt text table

/-! ## 4. Mapped and rejected rows -/

variable {sha256} {m : Mapping} {source : String} {receivedAt : Int64} {columns : List Column}

def mappedRow (sha256 : List UInt8 → Digest) (m : Mapping) (columns : List Column)
    (source : String) (receivedAt : Int64) (item : Row × ℕ) : Option MappedRecord :=
  (normalizeRow sha256 m columns item.1 source receivedAt).toOption.map
    (MappedRecord.mk item.2 (.ofNat item.1.bootUs))

def rejectedRow (sha256 : List UInt8 → Digest) (m : Mapping) (columns : List Column)
    (source : String) (receivedAt : Int64) (item : Row × ℕ) : Option RejectedRecord :=
  match normalizeRow sha256 m columns item.1 source receivedAt with
  | .ok _ => none
  | .error error => some ⟨item.2, error⟩

theorem ingestRow_eq (s : List MappedRecord × List RejectedRecord) (item : Row × ℕ) :
    ingestRow sha256 m columns source receivedAt s item =
      (s.1 ++ (mappedRow sha256 m columns source receivedAt item).toList,
        s.2 ++ (rejectedRow sha256 m columns source receivedAt item).toList) := by
  unfold ingestRow mappedRow rejectedRow
  dsimp only
  cases normalizeRow sha256 m columns item.1 source receivedAt <;> simp [Except.toOption]

/-- **The loop over the rows.** A row adds one entry to one of the two lists, under its own index;
nothing else of the report changes. -/
theorem foldl_ingestRow (items : List (Row × ℕ)) :
    ∀ s : List MappedRecord × List RejectedRecord,
      items.foldl (ingestRow sha256 m columns source receivedAt) s =
        (s.1 ++ items.filterMap (mappedRow sha256 m columns source receivedAt),
          s.2 ++ items.filterMap (rejectedRow sha256 m columns source receivedAt)) := by
  induction items with
  | nil => simp
  | cons item items ih =>
    intro s
    rw [List.foldl_cons, ih, ingestRow_eq, List.filterMap_cons, List.filterMap_cons]
    cases mappedRow sha256 m columns source receivedAt item <;>
      cases rejectedRow sha256 m columns source receivedAt item <;> simp

/-- What an accepted table has come to: the mapped and the rejected rows are those of the rows
that the decoder returns, each row by itself and in their order. -/
theorem ingestBootCsv_eq_ok {bytes : List UInt8} {timeColumn : String} {options : ParseOptions}
    {report : IngestReport}
    (h : ingestBootCsv sha256 bytes timeColumn m source receivedAt options = .ok report) :
    report.mapped = report.table.rows.zipIdx.filterMap
      (mappedRow sha256 m report.table.columns source receivedAt) ∧
    report.rejected = report.table.rows.zipIdx.filterMap
      (rejectedRow sha256 m report.table.columns source receivedAt) := by
  unfold ingestBootCsv at h
  split at h
  · cases h
  split at h
  · cases h
  split at h
  · cases h
  obtain ⟨_, -, h⟩ := bind_eq_ok.mp h
  split at h
  · cases h
  next table _ =>
  obtain ⟨_, -, h⟩ := bind_eq_ok.mp h
  obtain ⟨_, -, h⟩ := bind_eq_ok.mp h
  obtain ⟨_, -, h⟩ := bind_eq_ok.mp h
  obtain ⟨_, -, h⟩ := bind_eq_ok.mp h
  rw [foldl_ingestRow] at h
  obtain rfl := Except.ok.inj h
  exact ⟨rfl, rfl⟩

/-- **How the rows of a table are accounted for.** Between them the two lists hold each index once
and in order, and an entry has the time of its row. -/
structure RowsAccounted (sha256 : List UInt8 → Digest) (m : Mapping) (source : String)
    (receivedAt : Int64) (report : IngestReport) : Prop where
  once : ∀ i < report.table.rows.length,
    (i ∈ report.mapped.map (·.recordIndex) ↔ i ∉ report.rejected.map (·.recordIndex))
  mapped_iff : ∀ r, r ∈ report.mapped ↔ ∃ row, report.table.rows[r.recordIndex]? = some row ∧
    r.bootUs = .ofNat row.bootUs ∧
    normalizeRow sha256 m report.table.columns row source receivedAt = .ok r.envelope
  rejected_iff : ∀ r, r ∈ report.rejected ↔ ∃ row, report.table.rows[r.recordIndex]? = some row ∧
    normalizeRow sha256 m report.table.columns row source receivedAt = .error r.error
  mapped_ascending : (report.mapped.map (·.recordIndex)).Pairwise (· < ·)
  rejected_ascending : (report.rejected.map (·.recordIndex)).Pairwise (· < ·)

theorem mem_mappedRow {rows : List Row} {r : MappedRecord} :
    r ∈ rows.zipIdx.filterMap (mappedRow sha256 m columns source receivedAt) ↔
      ∃ row, rows[r.recordIndex]? = some row ∧ r.bootUs = .ofNat row.bootUs ∧
        normalizeRow sha256 m columns row source receivedAt = .ok r.envelope := by
  rw [List.mem_filterMap]
  constructor
  · rintro ⟨⟨row, index⟩, hmem, hof⟩
    obtain ⟨envelope, henvelope, rfl⟩ := Option.map_eq_some_iff.mp hof
    exact ⟨row, List.mem_zipIdx_iff_getElem?.mp hmem, rfl,
      ok_of_mem_toOption (Option.mem_toList.mpr henvelope)⟩
  · rintro ⟨row, hrow, hboot, hof⟩
    refine ⟨(row, r.recordIndex), List.mem_zipIdx_iff_getElem?.mpr hrow, ?_⟩
    unfold mappedRow
    dsimp only
    rw [hof, ← hboot]
    rfl

theorem mem_rejectedRow {rows : List Row} {r : RejectedRecord} :
    r ∈ rows.zipIdx.filterMap (rejectedRow sha256 m columns source receivedAt) ↔
      ∃ row, rows[r.recordIndex]? = some row ∧
        normalizeRow sha256 m columns row source receivedAt = .error r.error := by
  rw [List.mem_filterMap]
  constructor
  · rintro ⟨⟨row, index⟩, hmem, hof⟩
    unfold rejectedRow at hof
    split at hof
    · cases hof
    next error herror =>
    obtain rfl := Option.some.inj hof
    exact ⟨row, List.mem_zipIdx_iff_getElem?.mp hmem, herror⟩
  · rintro ⟨row, hrow, hof⟩
    refine ⟨(row, r.recordIndex), List.mem_zipIdx_iff_getElem?.mpr hrow, ?_⟩
    unfold rejectedRow
    dsimp only
    rw [hof]

theorem pairwise_zipIdx {α : Type} (l : List α) (start : ℕ) :
    (l.zipIdx start).Pairwise (·.2 < ·.2) := by
  have hrange : ((l.zipIdx start).map Prod.snd).Pairwise (· < ·) := by
    rw [List.zipIdx_map_snd]
    exact List.pairwise_lt_range'
  exact List.pairwise_map.mp hrange

theorem pairwise_filterMap_zipIdx {α β : Type} {f : α × ℕ → Option β} {index : β → ℕ}
    (hindex : ∀ item b, f item = some b → index b = item.2) (l : List α) :
    ((l.zipIdx.filterMap f).map index).Pairwise (· < ·) := by
  rw [List.pairwise_map, List.pairwise_filterMap]
  refine (pairwise_zipIdx l 0).imp fun {a a'} hlt b hb b' hb' => ?_
  rwa [hindex a b hb, hindex a' b' hb']

/-- **Every row is mapped or rejected**, in order and at its own time. -/
theorem rowsAccounted {bytes : List UInt8} {timeColumn : String} {options : ParseOptions}
    {report : IngestReport}
    (h : ingestBootCsv sha256 bytes timeColumn m source receivedAt options = .ok report) :
    RowsAccounted sha256 m source receivedAt report := by
  obtain ⟨hmapped, hrejected⟩ := ingestBootCsv_eq_ok h
  have hmem (r : MappedRecord) : r ∈ report.mapped ↔ _ := hmapped ▸ mem_mappedRow
  have hmem' (r : RejectedRecord) : r ∈ report.rejected ↔ _ := hrejected ▸ mem_rejectedRow
  refine ⟨fun i hi => ?_, hmem, hmem', ?_, ?_⟩
  · have hrow := List.getElem?_eq_getElem hi
    rw [List.mem_map, List.mem_map]
    constructor
    · rintro ⟨r, hr, rfl⟩ ⟨r', hr', heq⟩
      obtain ⟨row, hget, -, hok⟩ := (hmem r).mp hr
      obtain ⟨row', hget', herror⟩ := (hmem' r').mp hr'
      rw [heq, hget] at hget'
      rw [← Option.some.inj hget', hok] at herror
      cases herror
    · intro hnone
      cases hof : normalizeRow sha256 m report.table.columns report.table.rows[i] source
          receivedAt with
      | ok envelope => exact ⟨⟨i, _, envelope⟩, (hmem _).mpr ⟨_, hrow, rfl, hof⟩, rfl⟩
      | error error => exact absurd ⟨⟨i, error⟩, (hmem' _).mpr ⟨_, hrow, hof⟩, rfl⟩ hnone
  · rw [hmapped]
    refine pairwise_filterMap_zipIdx (fun item r hr => ?_) _
    obtain ⟨envelope, -, rfl⟩ := Option.map_eq_some_iff.mp hr
    rfl
  · rw [hrejected]
    refine pairwise_filterMap_zipIdx (fun item r hr => ?_) _
    unfold rejectedRow at hr
    split at hr
    · cases hr
    · rw [← Option.some.inj hr]

end Musubi.Adapter.RecordedCsv
