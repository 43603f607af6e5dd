/-
# Records on lines

`field-contracts/src/ndjson.rs`.  The JSON library is a parameter: how it writes a record, and
what it makes of a line.  Of a record that it carries (`SerdeJson.Carries`) is asked what the
library promises: the text is an object without raw line breaks, and reads back as the record.
What decoding says of any text (`DecodesLines`) asks nothing of the library.

The encoder validates each record before it writes it, so a list is encoded if all of its records
are valid and not at all otherwise; nothing is written of a list with an invalid record.  The
decoder goes line by line and stops at the first line that is blank, is no record, or has one that
is not valid, and its error has the number of the line, counted from one.  A line feed at the end
of the text begins no further line; a blank line in the middle is refused.

The library works on texts and the files are bytes, so section 3 goes from the one to the other:
bytes that are no UTF-8 are refused as a whole, before any line is looked at.
-/
import Musubi.Contracts.Records
import Musubi.Lib.Lines
import Musubi.Lib.Utf8

namespace Musubi.Contracts

open Lib Musubi.Core Northbound.WirePolicy

/-! ## 1. Encoding and decoding -/

structure SerdeJson where
  toWriter : RecordV1 → Except String String
  fromStr : String → Except String RecordV1

variable (serde : SerdeJson)

def encodeNdjson : List RecordV1 → ContractResult (List UInt8)
  | [] => .ok []
  | record :: records => do
    record.validate
    let text ← (serde.toWriter record).mapError .json
    let output ← encodeNdjson records
    return utf8 text ++ 0x0A :: output

/-- What is wrong with a line, or its record. -/
def decodeLine (line : List Char) : Except String RecordV1 :=
  if (trim line).isEmpty then .error "empty records are forbidden"
  else do
    let record ← serde.fromStr (String.ofList line)
    record.validate.mapError ContractError.display
    return record

/-- The records of the lines from `index` on, counted from nought. -/
def decodeLines : ℕ → List (List Char) → ContractResult (List RecordV1)
  | _, [] => .ok []
  | index, line :: more => do
    let record ← (decodeLine serde line).mapError (.ndjsonLine (index + 1))
    let records ← decodeLines (index + 1) more
    return record :: records

def decodeNdjson (input : List UInt8) : ContractResult (List RecordV1) :=
  match fromUtf8 input with
  | .error e => .error (.json e.display)
  | .ok text => decodeLines serde 0 (lines text.toList)

variable {serde}

/-! ## 2. Lines -/

/-- A line with one valid record: it is not blank, the library reads the record in it, and the
record passes its own check. -/
structure GoodLine (serde : SerdeJson) (line : List Char) (record : RecordV1) : Prop where
  nonblank : (trim line).isEmpty = false
  read : serde.fromStr (String.ofList line) = .ok record
  valid : record.validate = .ok ()

/-- A line that is blank, is no record, or has one that is not valid, with the reason that the
decoder gives in each of these cases. -/
inductive BadLine (serde : SerdeJson) (line : List Char) : String → Prop
  | blank (h : (trim line).isEmpty = true) : BadLine serde line "empty records are forbidden"
  | unparsable {reason : String} (h : (trim line).isEmpty = false)
      (hread : serde.fromStr (String.ofList line) = .error reason) : BadLine serde line reason
  | invalid {record : RecordV1} {e : ContractError} (h : (trim line).isEmpty = false)
      (hread : serde.fromStr (String.ofList line) = .ok record)
      (hvalid : record.validate = .error e) : BadLine serde line e.display

theorem decodeLine_eq_ok {line : List Char} {record : RecordV1} :
    decodeLine serde line = .ok record ↔ GoodLine serde line record := by
  unfold decodeLine
  constructor
  · intro h
    split at h
    · cases h
    · rename_i hblank
      obtain ⟨record', hread, h⟩ := bind_eq_ok.mp h
      obtain ⟨⟨⟩, hvalid, h⟩ := bind_eq_ok.mp h
      cases h
      exact ⟨Bool.not_eq_true _ ▸ hblank, hread, mapError_eq_ok.mp hvalid⟩
  · rintro ⟨hblank, hread, hvalid⟩
    rw [if_neg (by rw [hblank]; exact Bool.false_ne_true), hread]
    simp only [bind, Except.bind, hvalid, Except.mapError, pure, Except.pure]

theorem decodeLine_eq_error {line : List Char} {reason : String}
    (h : decodeLine serde line = .error reason) : BadLine serde line reason := by
  unfold decodeLine at h
  split at h
  · rename_i hblank
    cases h
    exact .blank hblank
  · rename_i hblank
    have hblank' := Bool.not_eq_true _ ▸ hblank
    cases hread : serde.fromStr (String.ofList line) with
    | error e =>
      rw [hread] at h
      cases h
      exact .unparsable hblank' hread
    | ok record =>
      rw [hread] at h
      cases hvalid : record.validate with
      | error e =>
        simp only [bind, Except.bind, hvalid, Except.mapError] at h
        cases h
        exact .invalid hblank' hread hvalid
      | ok _ =>
        simp only [bind, Except.bind, hvalid, Except.mapError, pure, Except.pure] at h
        cases h

/-- **What decoding says of lines**: one record for each, or the number of the first line that is
not good. -/
inductive DecodesLines (serde : SerdeJson) (all : List (List Char)) :
    ContractResult (List RecordV1) → Prop
  | records {records : List RecordV1} (h : List.Forall₂ (GoodLine serde) all records) :
      DecodesLines serde all (.ok records)
  | firstBad {before more : List (List Char)} {line : List Char} {reason : String}
      (hall : all = before ++ line :: more)
      (hgood : ∀ l ∈ before, ∃ record, GoodLine serde l record)
      (hbad : BadLine serde line reason) :
      DecodesLines serde all (.error (.ndjsonLine (before.length + 1) reason))

/-- The lines from `index` on: the records, or the first bad line. -/
theorem decodeLines_cases (all : List (List Char)) : ∀ index,
    (∃ records, decodeLines serde index all = .ok records ∧
      List.Forall₂ (GoodLine serde) all records) ∨
    ∃ before line more reason, all = before ++ line :: more ∧
      (∀ l ∈ before, ∃ record, GoodLine serde l record) ∧ BadLine serde line reason ∧
      decodeLines serde index all = .error (.ndjsonLine (index + before.length + 1) reason) := by
  induction all with
  | nil => exact fun index => Or.inl ⟨[], rfl, .nil⟩
  | cons line all ih =>
    intro index
    cases hline : decodeLine serde line with
    | error reason =>
      refine Or.inr ⟨[], line, all, reason, rfl, List.forall_mem_nil _,
        decodeLine_eq_error hline, ?_⟩
      rw [decodeLines, hline]
      rfl
    | ok record =>
      have hgood := decodeLine_eq_ok.mp hline
      rcases ih (index + 1) with ⟨records, hrest, hall⟩ | ⟨before, bad, more, reason, hall, hbefore,
        hbad, hrest⟩
      · refine Or.inl ⟨record :: records, ?_, .cons hgood hall⟩
        rw [decodeLines, hline, hrest]
        rfl
      · refine Or.inr ⟨line :: before, bad, more, reason, congrArg (line :: ·) hall,
          List.forall_mem_cons.mpr ⟨⟨record, hgood⟩, hbefore⟩, hbad, ?_⟩
        rw [decodeLines, hline, hrest, List.length_cons]
        simp only [Except.mapError, bind, Except.bind, Nat.add_assoc, Nat.add_comm 1]

/-- Good lines are decoded whatever their number, which only an error would name.  Induction on
the lines, with the number of the first one free. -/
theorem decodeLines_of_good {all : List (List Char)} {records : List RecordV1}
    (h : List.Forall₂ (GoodLine serde) all records) : ∀ index,
    decodeLines serde index all = .ok records := by
  induction h with
  | nil => exact fun index => rfl
  | cons hline _ ih =>
    intro index
    rw [decodeLines, decodeLine_eq_ok.mpr hline, ih]
    rfl

/-! ## 3. Bytes and texts -/

theorem utf8_flatMap (s : String) : utf8 s = s.toList.flatMap String.utf8EncodeChar :=
  toByteArray_toList s

/-- The bytes of a text are read as the text: the decoder of the standard library takes back what
the encoder gives. -/
theorem fromUtf8_utf8 (s : String) : fromUtf8 (utf8 s) = .ok s := by
  rw [fromUtf8_eq_ok, utf8_flatMap, utf8Chunks_encode]

theorem decodeNdjson_utf8 (s : String) :
    decodeNdjson serde (utf8 s) = decodeLines serde 0 (lines s.toList) := by
  unfold decodeNdjson
  rw [fromUtf8_utf8]

/-! ## 4. What was encoded -/

/-- What the library promises of a record: it is written as an object without raw line breaks
that reads back. -/
structure SerdeJson.Carries (serde : SerdeJson) (record : RecordV1) (text : String) : Prop where
  written : serde.toWriter record = .ok text
  read : serde.fromStr text = .ok record
  object : text.toList.head? = some '{'
  oneLine : '\n' ∉ text.toList ∧ '\r' ∉ text.toList

theorem GoodLine.of_carries {record : RecordV1} {text : String} (h : serde.Carries record text)
    (hvalid : record.validate = .ok ()) : GoodLine serde text.toList record where
  nonblank := by
    have hbrace : '{' ∈ text.toList := List.mem_of_mem_head? h.object
    exact trim_isEmpty_eq_false hbrace (by decide)
  read := by
    rw [String.ofList_toList]
    exact h.read
  valid := hvalid

/-- The texts of records that the library carries, chosen one by one, as a list beside the
records. -/
theorem exists_texts {records : List RecordV1}
    (h : ∀ record ∈ records, ∃ text, serde.Carries record text) :
    ∃ texts : List String, List.Forall₂ serde.Carries records texts := by
  induction records with
  | nil => exact ⟨[], .nil⟩
  | cons record records ih =>
    obtain ⟨⟨text, htext⟩, hrest⟩ := List.forall_mem_cons.mp h
    obtain ⟨texts, htexts⟩ := ih hrest
    exact ⟨text :: texts, .cons htext htexts⟩

/-- **Valid records are encoded as their texts**, each on a line. -/
theorem encodeNdjson_of_carries {records : List RecordV1} {texts : List String}
    (h : List.Forall₂ serde.Carries records texts)
    (hvalid : ∀ record ∈ records, record.validate = .ok ()) :
    encodeNdjson serde records =
      .ok (utf8 (String.ofList (unlines (texts.map String.toList)))) := by
  induction h with
  | nil => rfl
  | @cons record text records texts hrecord _ ih =>
    obtain ⟨hfirst, hrest⟩ := List.forall_mem_cons.mp hvalid
    have hbytes : utf8 (String.ofList (unlines ((text :: texts).map String.toList))) =
        utf8 text ++ 0x0A :: utf8 (String.ofList (unlines (texts.map String.toList))) := by
      simp only [utf8_flatMap, String.toList_ofList, unlines, List.map_cons, List.flatMap_cons,
        List.flatMap_append, List.append_assoc]
      rfl
    rw [encodeNdjson, hfirst, hrecord.written, ih hrest, hbytes]
    rfl

/-- Only valid records are encoded: the encoder validates each before it writes it, and fails with
the first that is not. -/
theorem valid_of_encodeNdjson {records : List RecordV1} : ∀ {output : List UInt8},
    encodeNdjson serde records = .ok output → ∀ record ∈ records, record.validate = .ok () := by
  induction records with
  | nil => exact fun _ => List.forall_mem_nil _
  | cons record records ih =>
    intro output h
    rw [encodeNdjson] at h
    obtain ⟨⟨⟩, hvalid, h⟩ := bind_eq_ok.mp h
    obtain ⟨text, -, h⟩ := bind_eq_ok.mp h
    obtain ⟨rest, hrest, -⟩ := bind_eq_ok.mp h
    exact List.forall_mem_cons.mpr ⟨hvalid, ih hrest⟩

theorem encodeNdjson_append {records more : List RecordV1} : ∀ {output output' : List UInt8},
    encodeNdjson serde records = .ok output → encodeNdjson serde more = .ok output' →
    encodeNdjson serde (records ++ more) = .ok (output ++ output') := by
  induction records with
  | nil =>
    intro output output' h hmore
    cases h
    exact hmore
  | cons record records ih =>
    intro output output' h hmore
    rw [encodeNdjson] at h
    obtain ⟨⟨⟩, hvalid, h⟩ := bind_eq_ok.mp h
    obtain ⟨text, htext, h⟩ := bind_eq_ok.mp h
    obtain ⟨rest, hrest, h⟩ := bind_eq_ok.mp h
    cases h
    rw [List.cons_append, encodeNdjson, hvalid, htext, ih hrest hmore]
    simp only [bind, Except.bind, pure, Except.pure, List.append_assoc, List.cons_append]

/-- **What was encoded is decoded.** -/
theorem decodeNdjson_encodeNdjson {records : List RecordV1} {output : List UInt8}
    (hcarried : ∀ record ∈ records, record.validate = .ok () →
      ∃ text, serde.Carries record text)
    (h : encodeNdjson serde records = .ok output) : decodeNdjson serde output = .ok records := by
  have hvalid := valid_of_encodeNdjson h
  obtain ⟨texts, htexts⟩ := exists_texts fun record hmem =>
    hcarried record hmem (hvalid record hmem)
  rw [encodeNdjson_of_carries htexts hvalid] at h
  cases h
  have hlines : ∀ line ∈ texts.map String.toList, '\n' ∉ line ∧ '\r' ∉ line := by
    clear hvalid hcarried
    induction htexts with
    | nil => exact List.forall_mem_nil _
    | cons hrecord _ ih => exact List.forall_mem_cons.mpr ⟨hrecord.oneLine, ih⟩
  have hgood : List.Forall₂ (GoodLine serde) (texts.map String.toList) records := by
    clear hlines hcarried
    induction htexts with
    | nil => exact .nil
    | cons hrecord _ ih =>
      obtain ⟨hfirst, hrest⟩ := List.forall_mem_cons.mp hvalid
      exact .cons (.of_carries hrecord hfirst) (ih hrest)
  rw [decodeNdjson_utf8, String.toList_ofList, lines_unlines hlines]
  exact decodeLines_of_good hgood 0

/-! ## 5. The round trip -/

/-- **Records on lines.** Records are encoded exactly when each is valid, and then decoded as they
were, alone and after others; any text is decoded line by line, up to the first line that is not
good.  `hcarried` is asked of valid records only, since no other record reaches the library.  The
last part holds of every text, whoever wrote it. -/
theorem ndjson_roundTrip (serde : SerdeJson) (records more : List RecordV1)
    (hcarried : ∀ record ∈ records ++ more, record.validate = .ok () →
      ∃ text, serde.Carries record text) :
    ((∃ output, encodeNdjson serde records = .ok output) ↔
      ∀ record ∈ records, record.validate = .ok ()) ∧
    (∀ output, encodeNdjson serde records = .ok output →
      decodeNdjson serde output = .ok records) ∧
    (∀ output output', encodeNdjson serde records = .ok output →
      encodeNdjson serde more = .ok output' →
      decodeNdjson serde (output ++ output') = .ok (records ++ more)) ∧
    ∀ s : String, DecodesLines serde (lines s.toList) (decodeNdjson serde (utf8 s)) := by
  have hfirst : ∀ record ∈ records, record.validate = .ok () →
      ∃ text, serde.Carries record text := fun record hmem =>
    hcarried record (List.mem_append_left _ hmem)
  refine ⟨⟨fun ⟨_, h⟩ => valid_of_encodeNdjson h, ?_⟩,
    fun _ => decodeNdjson_encodeNdjson hfirst, ?_, ?_⟩
  · intro hvalid
    obtain ⟨texts, htexts⟩ := exists_texts fun record hmem =>
      hfirst record hmem (hvalid record hmem)
    exact ⟨_, encodeNdjson_of_carries htexts hvalid⟩
  · intro output output' h hmore
    exact decodeNdjson_encodeNdjson hcarried (encodeNdjson_append h hmore)
  · intro s
    rw [decodeNdjson_utf8]
    rcases decodeLines_cases (lines s.toList) 0 with ⟨records', h, hall⟩ | ⟨before, line, after,
      reason, hall, hgood, hbad, h⟩
    · rw [h]
      exact .records hall
    · rw [h, Nat.zero_add]
      exact .firstBad hall hgood hbad

/-- A registry without entries, and its text. -/
def emptyRegistry : RecordV1 := .registry ⟨"1", .public_, []⟩

def emptyRegistryText : String :=
  r#"{"record_type":"registry","record":{"schema_version":"1","scope":{"scope":"public"},"# ++
    r#""entries":[]}}"#

def exampleDigest : DigestV1 where
  text := "sha256:0123456789abcdef0123456789abcdef0123456789abcdef0123456789abcdef"
  valid := by decide

/-- A seal of a report, and its text. -/
def rejection : RecordV1 :=
  .humanSeal ⟨"1", exampleDigest, exampleDigest, "pilot", .selfAttested, .reject, 7, false⟩

def rejectionChars : List Char :=
  r#"{"record_type":"human_seal","record":{"schema_version":"1","report_digest":""#.toList ++
    exampleDigest.text.toList ++ r#"","candidate_digest":""#.toList ++ exampleDigest.text.toList ++
    r#"","approver_id":"pilot","identity_basis":"self_attested","decision":"reject","#.toList ++
    r#""sealed_at_ns":7,"runtime_load_authorized":false}}"#.toList

def rejectionText : String := String.ofList rejectionChars

/-- A library that knows these records only. -/
def exampleSerde : SerdeJson where
  toWriter record :=
    if record = emptyRegistry then .ok emptyRegistryText
    else if record = rejection then .ok rejectionText
    else .error "unknown"
  fromStr s :=
    if s = emptyRegistryText then .ok emptyRegistry
    else if s = rejectionText then .ok rejection
    else .error "expected value at line 1 column 1"

theorem carries_emptyRegistry : exampleSerde.Carries emptyRegistry emptyRegistryText where
  written := by simp [exampleSerde]
  read := by simp [exampleSerde]
  object := by decide
  oneLine := by decide

theorem rejectionText_ne : rejectionText ≠ emptyRegistryText := by
  intro h
  have hlist := congrArg String.toList h
  rw [rejectionText, String.toList_ofList] at hlist
  exact absurd (congrArg (List.take 17) hlist) (by decide)

theorem carries_rejection : exampleSerde.Carries rejection rejectionText where
  written := by
    have hne : rejection ≠ emptyRegistry := nofun
    simp [exampleSerde, hne]
  read := by simp [exampleSerde, rejectionText_ne]
  object := by
    rw [rejectionText, String.toList_ofList]
    decide
  oneLine := by
    rw [rejectionText, String.toList_ofList]
    decide +kernel

/-- Both come back in their order, and the seal once more behind them. -/
theorem registry_and_seal_roundTrip :
    ((∃ output, encodeNdjson exampleSerde [emptyRegistry, rejection] = .ok output) ↔
      ∀ record ∈ [emptyRegistry, rejection], record.validate = .ok ()) ∧
    (∀ output, encodeNdjson exampleSerde [emptyRegistry, rejection] = .ok output →
      decodeNdjson exampleSerde output = .ok [emptyRegistry, rejection]) ∧
    (∀ output output', encodeNdjson exampleSerde [emptyRegistry, rejection] = .ok output →
      encodeNdjson exampleSerde [rejection] = .ok output' →
      decodeNdjson exampleSerde (output ++ output') =
        .ok ([emptyRegistry, rejection] ++ [rejection])) ∧
    ∀ s : String,
      DecodesLines exampleSerde (lines s.toList) (decodeNdjson exampleSerde (utf8 s)) := by
  refine ndjson_roundTrip exampleSerde [emptyRegistry, rejection] [rejection] ?_
  intro record hmem _
  have hrecord : record = emptyRegistry ∨ record = rejection := by simpa using hmem
  rcases hrecord with rfl | rfl
  · exact ⟨emptyRegistryText, carries_emptyRegistry⟩
  · exact ⟨rejectionText, carries_rejection⟩

end Musubi.Contracts
