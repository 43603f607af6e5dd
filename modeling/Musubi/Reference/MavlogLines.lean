/-
# Records and their lines

What `parse` of `jsonl-log` has read, said of the lines of a log.  Every line is one record; a
record has the time that its own data says, in either counter, or none; and the timed records are
listed with their places among all of them.

`parse` is a loop over the lines with an accumulator, so the first thing to know about it is what
one line adds (`parseLine_eq_ok`), and the second what a list of records adds from any state
(`foldlM_parseLine`, by induction on the lines).  `parse_eq_ok` says from it which bytes are
parsed, and as which log: a text every line of which is read, with a timed record among them.

A line of a log is therefore a log with that record alone (`parse_line`).  The reader of streams,
which is given one line at a time, rests on that: it parses every frame as a log of its own.
-/
import Musubi.Lib.Result
import Musubi.Reference.MavlogJson

namespace Musubi.Reference.Mavlog

open Lib Musubi.Core

variable {serde : SerdeJson}

/-! ## 1. Times -/

/-- The time of a record, or the reason why it is none. -/
def timeOf (record : JsonValue) : Except String (Option UInt64) := do
  let (_, data) ← recordParts id record
  recordTime id data

/-- The boot time of a record that has one. -/
def bootOf (record : JsonValue) : Option UInt64 :=
  match timeOf record with
  | .ok time => time
  | .error _ => none

section Errors

variable {ε : Type} (error : String → ε)

/-- A reason is the same wherever it is reported; only the error around it differs between the two
callers. -/
theorem recordParts_mapError (record : JsonValue) :
    recordParts error record = (recordParts id record).mapError error := by
  unfold recordParts
  split
  · rfl
  split
  · rfl
  split <;> rfl

theorem recordTime_mapError (data : List (String × JsonValue)) :
    recordTime error data = (recordTime id data).mapError error := by
  unfold recordTime
  cases data.lookup "TimeUS" with
  | none =>
    cases data.lookup "TimeMS" with
    | none => rfl
    | some ms =>
      dsimp only
      cases ms.asU64 with
      | none => rfl
      | some t =>
        by_cases ht : t.toNat * 1000 < 2 ^ 64
        · simp only [ht, if_true]
          rfl
        · simp only [ht, if_false]
          rfl
  | some us =>
    dsimp only
    cases us.asU64 with
    | none => rfl
    | some u =>
      cases data.lookup "TimeMS" with
      | none => rfl
      | some ms =>
        dsimp only
        cases ms.asU64 with
        | none => rfl
        | some t =>
          by_cases ht : t.toNat * 1000 < 2 ^ 64
          · simp only [ht, if_true]
            by_cases heq : u = t * 1000 <;> simp [heq, bind, Except.bind, pure, Except.pure,
              Except.mapError]
          · simp only [ht, if_false]
            rfl

end Errors

/-! ## 2. One line -/

/-- What a line has to be for its record: the library reads it as a value without duplicate keys,
and it is a record whose data have a time or none. -/
def ReadsLine (serde : SerdeJson) (line : List Char) (record : JsonValue) : Prop :=
  (serde.fromStr (String.ofList line)).bind JsonValue.unique = some record ∧
    ∃ time, timeOf record = .ok time

/-- A log with one more record. -/
def DecodedLog.add (log : DecodedLog) (index : ℕ) (record : JsonValue) : DecodedLog where
  records := log.records ++ [record]
  timedRecords := log.timedRecords ++ ((bootOf record).map (TimedRecord.mk index)).toList
  untimedRecords := log.untimedRecords + if bootOf record = none then 1 else 0

theorem DecodedLog.add_timed (log : DecodedLog) (index : ℕ) {record : JsonValue}
    {bootUs : UInt64} (h : bootOf record = some bootUs) : log.add index record =
      { log with
        records := log.records ++ [record]
        timedRecords := log.timedRecords ++ [⟨index, bootUs⟩] } := by
  simp [add, h]

theorem DecodedLog.add_untimed (log : DecodedLog) (index : ℕ) {record : JsonValue}
    (h : bootOf record = none) : log.add index record =
      { log with
        records := log.records ++ [record]
        untimedRecords := log.untimedRecords + 1 } := by
  simp [add, h]

theorem parseLine_eq_ok {log log' : DecodedLog} {line : List Char} {index : ℕ} :
    parseLine serde log (line, index) = .ok log' ↔
      ∃ record, ReadsLine serde line record ∧ log' = log.add index record := by
  unfold parseLine ReadsLine
  dsimp only
  cases (serde.fromStr (String.ofList line)).bind JsonValue.unique with
  | none => exact iff_of_false (fun h => by cases h) (by simp)
  | some record =>
    simp only [Option.some.injEq, exists_eq_left', and_assoc]
    rw [recordParts_mapError]
    have htime : timeOf record = recordParts id record >>= fun parts => recordTime id parts.2 := rfl
    constructor
    · intro h
      obtain ⟨⟨name, data⟩, hparts, h⟩ := bind_eq_ok.mp h
      obtain ⟨time, hread, h⟩ := bind_eq_ok.mp h
      rw [mapError_eq_ok] at hparts
      rw [recordTime_mapError, mapError_eq_ok] at hread
      have hof : timeOf record = .ok time := by
        rw [htime, hparts]
        exact hread
      have hboot : bootOf record = time := by
        rw [bootOf, hof]
      refine ⟨⟨time, hof⟩, ?_⟩
      cases time with
      | none => exact (Except.ok.inj h).symm.trans (log.add_untimed index hboot).symm
      | some bootUs => exact (Except.ok.inj h).symm.trans (log.add_timed index hboot).symm
    · rintro ⟨⟨time, hof⟩, rfl⟩
      have hboot : bootOf record = time := by
        rw [bootOf, hof]
      rw [htime] at hof
      obtain ⟨⟨name, data⟩, hparts, hread⟩ := bind_eq_ok.mp hof
      refine bind_eq_ok.mpr ⟨(name, data), mapError_eq_ok.mpr hparts, ?_⟩
      refine bind_eq_ok.mpr ⟨time, ?_, ?_⟩
      · rw [recordTime_mapError, mapError_eq_ok]
        exact hread
      · cases time with
        | none => exact congrArg Except.ok (log.add_untimed index hboot).symm
        | some bootUs => exact congrArg Except.ok (log.add_timed index hboot).symm

/-! ## 3. All lines -/

/-- The timed ones among records from a place on. -/
def timedFrom (start : ℕ) (records : List JsonValue) : List TimedRecord :=
  (records.zipIdx start).filterMap fun (record, index) => (bootOf record).map (TimedRecord.mk index)

theorem timedFrom_cons (start : ℕ) (record : JsonValue) (records : List JsonValue) :
    timedFrom start (record :: records) =
      ((bootOf record).map (TimedRecord.mk start)).toList ++ timedFrom (start + 1) records := by
  unfold timedFrom
  rw [List.zipIdx_cons, List.filterMap_cons]
  dsimp only
  cases bootOf record <;> simp

/-- A log with more records. -/
def DecodedLog.addAll (log : DecodedLog) (start : ℕ) (records : List JsonValue) : DecodedLog where
  records := log.records ++ records
  timedRecords := log.timedRecords ++ timedFrom start records
  untimedRecords := log.untimedRecords + records.countP (bootOf · = none)

theorem DecodedLog.add_addAll (log : DecodedLog) (start : ℕ) (record : JsonValue)
    (records : List JsonValue) : (log.add start record).addAll (start + 1) records =
      log.addAll start (record :: records) := by
  unfold DecodedLog.add DecodedLog.addAll
  rw [timedFrom_cons, List.countP_cons]
  simp only [List.append_assoc, List.singleton_append, decide_eq_true_eq, DecodedLog.mk.injEq,
    true_and]
  omega

/-- **The loop over the lines** reads one record of each. -/
theorem foldlM_parseLine (ls : List (List Char)) : ∀ {start : ℕ} {log log' : DecodedLog},
    (ls.zipIdx start).foldlM (parseLine serde) log = .ok log' ↔
      ∃ records, List.Forall₂ (ReadsLine serde) ls records ∧ log' = log.addAll start records := by
  induction ls with
  | nil =>
    intro start log log'
    constructor
    · intro h
      obtain rfl := Except.ok.inj h
      exact ⟨[], .nil, by simp [DecodedLog.addAll, timedFrom]⟩
    · rintro ⟨records, hall, rfl⟩
      cases hall
      simp [DecodedLog.addAll, timedFrom, pure, Except.pure]
  | cons line ls ih =>
    intro start log log'
    rw [List.zipIdx_cons, List.foldlM_cons, bind_eq_ok]
    constructor
    · rintro ⟨next, hnext, hrest⟩
      obtain ⟨record, hrecord, rfl⟩ := parseLine_eq_ok.mp hnext
      obtain ⟨records, hrecords, rfl⟩ := ih.mp hrest
      exact ⟨record :: records, .cons hrecord hrecords, log.add_addAll start record records⟩
    · rintro ⟨records, hall, rfl⟩
      cases hall with
      | @cons _ record _ records hrecord hrecords =>
        exact ⟨log.add start record, parseLine_eq_ok.mpr ⟨record, hrecord, rfl⟩,
          ih.mpr ⟨records, hrecords, (log.add_addAll start record records).symm⟩⟩

/-- The log of records that were read. -/
def logOf (records : List JsonValue) : DecodedLog := DecodedLog.addAll {} 0 records

@[simp] theorem logOf_records (records : List JsonValue) : (logOf records).records = records := rfl

/-- **What is read of a text.** -/
theorem parse_eq_ok {bytes : List UInt8} {log : DecodedLog} :
    parse serde bytes = .ok log ↔ ∃ text records, fromUtf8 bytes = .ok text ∧
      List.Forall₂ (ReadsLine serde) (lines text.toList) records ∧
      timedFrom 0 records ≠ [] ∧ log = logOf records := by
  unfold parse
  cases fromUtf8 bytes with
  | error e => exact iff_of_false (fun h => by cases h) (by simp)
  | ok text =>
    dsimp only
    constructor
    · intro h
      obtain ⟨read, hread, h⟩ := bind_eq_ok.mp h
      obtain ⟨records, hall, rfl⟩ := (foldlM_parseLine _).mp hread
      split at h
      · cases h
      next htimed =>
      exact ⟨text, records, rfl, hall, htimed, (Except.ok.inj h).symm⟩
    · rintro ⟨text', records, htext, hall, htimed, rfl⟩
      obtain rfl := Except.ok.inj htext
      refine bind_eq_ok.mpr ⟨logOf records, (foldlM_parseLine _).mpr ⟨records, hall, rfl⟩, ?_⟩
      exact if_neg htimed

/-- **A timed record's line is a log of its own.** -/
theorem parse_line (hempty : serde.fromStr "" = none) {line : List Char} (hfeed : '\n' ∉ line)
    {record : JsonValue} (hread : ReadsLine serde line record) (htimed : bootOf record ≠ none) :
    parse serde (line.flatMap String.utf8EncodeChar) = .ok (logOf [record]) := by
  have hne : line ≠ [] := by
    rintro rfl
    have hnone := hread.1
    rw [show String.ofList [] = "" from rfl, hempty] at hnone
    cases hnone
  refine parse_eq_ok.mpr ⟨String.ofList line, [record], ?_, ?_, ?_, rfl⟩
  · exact fromUtf8_eq_ok.mpr (by rw [utf8Chunks_encode, String.toList_ofList])
  · rw [String.toList_ofList, lines_of_notMem hfeed hne]
    exact .cons hread .nil
  · obtain ⟨bootUs, hboot⟩ := Option.ne_none_iff_exists'.mp htimed
    rw [timedFrom_cons, hboot]
    exact List.cons_ne_nil _ _

end Musubi.Reference.Mavlog
