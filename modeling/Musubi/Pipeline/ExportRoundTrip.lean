/-
# What a reader finds in the absences

The CSV of the absences as rows of `Lib.Csv`, with the quoting rule of `csv_field`
(`toList_absencesCsvImpl`).  All cells but those that the inputs name are without a carriage
return, so a reader finds the rows as they are exactly if no name has one that nothing else in it
gets quoted (`absencesCsv_round_trip_iff`); with the domain columns the rows are as long as the
header if the asset of each is found, and the export with the domain refuses an output with a row
whose asset is not.

The reader is that of the CSV grammar, to which a carriage return outside of quotes ends a line,
alone or before a line feed.  A cell with a comma, a quote or a line feed is quoted and survives
whatever else it holds; a cell with a bare carriage return is not quoted and is cut (`BareReturn`,
`Whole`).

Which cells can have one is a matter of going through the columns (section 4): the labels are of
fixed vocabularies, the numbers and digests are of digits, the free texts are the names that
profiles, files and expectations bring along.  The condition names these and is therefore about
the inputs of the analysis.
-/
import Musubi.Fanout.Completeness
import Musubi.Lib.Csv
import Musubi.Pipeline.Export

namespace Musubi.Pipeline

open Lib Reference Northbound
open Fanout (markLabel twoDecimals digestPrefix)

/-! ## 1. The rule -/

/-- A carriage return, and nothing that `csv_field` quotes.  Such a cell is written as it is, and
a reader of CSV ends the line within it. -/
def BareReturn (s : String) : Prop := '\r' ∈ s.toList ∧ csvQuotes s.toList = false

instance (s : String) : Decidable (BareReturn s) := inferInstanceAs (Decidable (_ ∧ _))

theorem csvQuotes_eq_false_iff {s : List Char} :
    csvQuotes s = false ↔ ',' ∉ s ∧ '"' ∉ s ∧ '\n' ∉ s := by
  unfold csvQuotes
  rw [List.any_eq_false]
  constructor
  · intro h
    exact ⟨fun hmem => h _ hmem (by decide), fun hmem => h _ hmem (by decide),
      fun hmem => h _ hmem (by decide)⟩
  · rintro ⟨hcomma, hquote, hfeed⟩ c hc hspecial
    simp only [List.mem_cons, List.not_mem_nil, or_false, decide_eq_true_eq] at hspecial
    rcases hspecial with rfl | rfl | rfl
    · exact hcomma hc
    · exact hquote hc
    · exact hfeed hc

theorem quotesSpecial_csvQuotes : Csv.QuotesSpecial csvQuotes :=
  fun _ h => csvQuotes_eq_false_iff.mp h

theorem quotesReturns_iff {fields : List String} :
    Csv.QuotesReturns csvQuotes (fields.map String.toList) ↔ ∀ s ∈ fields, ¬ BareReturn s := by
  unfold Csv.QuotesReturns BareReturn
  rw [List.forall_mem_map]
  exact forall₂_congr fun s _ => ⟨fun h hb => h hb.2 hb.1, fun h hq hr => h ⟨hr, hq⟩⟩

theorem toList_row (fields : List String) :
    (row fields).toList = Csv.writeRow csvQuotes (fields.map String.toList) :=
  Csv.toList_writeRow (Csv.toList_write csvQuotes) fields

/-! ## 2. The text as rows -/

def absenceColumns : List String :=
  ["family", "asset_id", "source_role", "profile_id", "profile_origin", "file", "channel",
    "expectation_id", "absent_since_utc", "absent_since_wall_ms", "expected_by_wall_ms",
    "wall_bound_ms", "absent_since_native_ms", "expected_by_native_ms", "clock_basis",
    "time_confidence_min", "last_good_digest", "mark_status", "mark_reason", "note",
    "absence_digest", "export_schema_version", "absence_digest_full", "last_good_digest_full",
    "gap_end", "next_good_native_ms", "next_good_clock_basis", "next_good_digest",
    "next_good_digest_full", "wall_mapping"]

def domainColumns : List String :=
  ["platform_domain", "platform_domain_basis", "platform_domain_provenance"]

/-- The header that a reader is to find. -/
def columns (includeDomain : Bool) : List String :=
  absenceColumns ++ if includeDomain then domainColumns else []

/-- No column name is quoted, and none has a carriage return, so the header is read as the names
whatever the reader does with quotes. -/
theorem columns_plain : ∀ s ∈ (columns true).map String.toList, csvQuotes s = false ∧ '\r' ∉ s := by
  unfold columns absenceColumns domainColumns
  simp only [if_true, List.cons_append, List.nil_append, List.map_cons, List.map_nil]
  repeat rw [String.toList_ofList]
  decide +kernel

theorem mem_columns_true {includeDomain : Bool} {s : String} (h : s ∈ columns includeDomain) :
    s ∈ columns true := by
  cases includeDomain with
  | false => exact List.mem_append_left _ (by rwa [columns, if_neg Bool.false_ne_true,
      List.append_nil] at h)
  | true => exact h

theorem toList_absencesHeader : absencesHeader.toList =
    List.intercalate [','] ((columns false).map String.toList) ++ ['\n'] := by
  unfold absencesHeader columns absenceColumns
  simp only [String.toList_append, Bool.false_eq_true, if_false, List.append_nil, List.map_cons,
    List.map_nil]
  repeat rw [String.toList_ofList]
  decide +kernel

theorem toList_domainHeader : (domainHeader absencesHeader).toList =
    List.intercalate [','] ((columns true).map String.toList) ++ ['\n'] := by
  rw [domainHeader, String.toList_append, String.toList_ofList, toList_absencesHeader,
    List.dropLast_concat]
  unfold columns absenceColumns domainColumns
  simp only [Bool.false_eq_true, if_false, if_true, List.cons_append, List.nil_append,
    List.append_nil, List.map_cons, List.map_nil]
  repeat rw [String.toList_ofList]
  decide +kernel

/-- The header is the row of the columns, although the code writes it as a text of its own. -/
theorem toList_header (includeDomain : Bool) :
    (if includeDomain then domainHeader absencesHeader else absencesHeader).toList =
      Csv.writeRow csvQuotes ((columns includeDomain).map String.toList) := by
  have hwrite : ((columns includeDomain).map String.toList).map (Csv.write csvQuotes) =
      (columns includeDomain).map String.toList := by
    rw [List.map_map]
    refine List.map_congr_left fun s hs => ?_
    have hplain := columns_plain s.toList (List.mem_map_of_mem (mem_columns_true hs))
    exact if_neg (by rw [hplain.1]; exact Bool.false_ne_true)
  rw [Csv.writeRow, hwrite]
  cases includeDomain with
  | false => exact toList_absencesHeader
  | true => exact toList_domainHeader

variable (sha256 : List UInt8 → Digest)

/-- The rows that a reader is to find after it. -/
def absenceRecords (out : PipelineOut) (includeDomain : Bool) : List (List String) :=
  out.noticed.map (noticedRecord sha256 out includeDomain) ++
    out.unmapped.map (unmappedRecord sha256 out includeDomain)

theorem toList_foldl_row {α : Type} (record : α → List String) (entries : List α) : ∀ s : String,
    (entries.foldl (fun s e => s ++ row (record e)) s).toList =
      s.toList ++ Csv.writeRows csvQuotes ((entries.map record).map (List.map String.toList)) := by
  induction entries with
  | nil => exact fun s => (List.append_nil _).symm
  | cons e entries ih =>
    intro s
    rw [List.foldl_cons, ih, String.toList_append, toList_row, List.append_assoc]
    rfl

/-- **The text has a header and the rows.** This is the one place where the export is unfolded. -/
theorem toList_absencesCsvImpl (out : PipelineOut) (includeDomain : Bool) :
    (absencesCsvImpl sha256 out includeDomain).toList = Csv.writeRows csvQuotes
      ((columns includeDomain :: absenceRecords sha256 out includeDomain).map
        (List.map String.toList)) := by
  unfold absencesCsvImpl absenceRecords
  dsimp only
  rw [toList_foldl_row, toList_foldl_row, toList_header, List.map_cons, List.map_append,
    Csv.writeRows, Csv.writeRows, Csv.writeRows, List.flatMap_cons, List.flatMap_append,
    List.append_assoc]

/-! ## 3. Cells without a carriage return -/

/-- A text that no reader takes apart: quoted, or without a carriage return. -/
def Whole (s : String) : Prop := ¬ BareReturn s

instance (s : String) : Decidable (Whole s) := inferInstanceAs (Decidable (¬ _))

theorem whole_of_notMem {s : String} (h : '\r' ∉ s.toList) : Whole s := fun hbare => h hbare.1

theorem whole_of_isPlain {s : String} (h : s.toList.all isPlain = true) : Whole s :=
  whole_of_notMem fun hmem => absurd (List.all_eq_true.mp h _ hmem) (by decide)

theorem whole_append {s t : String} (hs : '\r' ∉ s.toList) (ht : '\r' ∉ t.toList) :
    Whole (s ++ t) := by
  refine whole_of_notMem ?_
  rw [String.toList_append]
  exact List.not_mem_append hs ht

theorem return_notMem_hexLower (bytes : List UInt8) : '\r' ∉ (hexLower bytes).toList :=
  notMem_hexLower (by decide) bytes

theorem whole_digestCell (d : Digest) : Whole (digestCell d) :=
  whole_append (by decide) (return_notMem_hexLower _)

theorem whole_digestFullCell (d : Digest) : Whole (digestFullCell d) :=
  whole_append (by decide) (return_notMem_hexLower _)

theorem whole_twoDecimals (v : F32) : Whole (twoDecimals v) := by
  unfold twoDecimals
  split
  · refine whole_of_isPlain ?_
    rw [String.toList_ofList]
    exact isPlain_fixedPoint _ _ _
  · split
    · exact whole_of_notMem (by decide)
    · split
      · exact whole_of_notMem (by decide)
      · exact whole_of_notMem (by decide)

theorem whole_wallCells (wall : Option (Int64 × Int64 × Int64)) :
    ∀ s ∈ wallCells wall, Whole s := by
  match wall with
  | none => exact List.forall_mem_cons.mpr ⟨by decide, by decide⟩
  | some (since, by_, bound) =>
    unfold wallCells
    simp only [List.forall_mem_cons, List.not_mem_nil, false_implies, implies_true, and_true]
    exact ⟨whole_of_isPlain (isPlain_isoUtcMs since), whole_of_isPlain (isPlain_toString since),
      whole_of_isPlain (isPlain_toString by_), whole_of_isPlain (isPlain_toString bound)⟩

/-- A cell of something that may be missing. -/
theorem whole_getD {α : Type} {f : α → String} {d : String} (hf : ∀ a, Whole (f a))
    (hd : Whole d) (o : Option α) : Whole ((o.map f).getD d) := by
  cases o with
  | none => exact hd
  | some a => exact hf a

/-! ## 4. The texts of the inputs -/

/-- The texts of a row that are as the inputs have them. -/
def rowTexts (src : Option SourceRun) (neg : NegativeObservation) (mapping : String) :
    List String :=
  neg.subject.assetId ::
    (src.map fun x => [x.profile.profileId, x.profile.origin, x.fileName]).getD [] ++
      [neg.expectationId, neg.mark.reasonCode, mappingCell neg mapping]

/-- **Only the texts of the inputs have a carriage return.** All other cells of a row are whole
whatever the row is. -/
theorem whole_absenceRow_iff (src : Option SourceRun) (neg : NegativeObservation)
    (bounds : GapBounds) (wall : Option (Int64 × Int64 × Int64)) (mapping : String)
    (includeDomain : Bool) :
    (∀ s ∈ absenceRow sha256 src neg bounds wall mapping includeDomain, Whole s) ↔
      ∀ t ∈ rowTexts src neg mapping, Whole t := by
  have hfamily : ∀ x : Family, Whole x.asStr := fun x => by cases x <;> decide
  have hrole : ∀ x : SourceRole, Whole x.asStr := fun x => by cases x <;> decide
  have hchannel : ∀ x : ChannelId, Whole x.asStr := fun x => by cases x <;> decide
  have hbasis : ∀ x : ClockBasis, Whole x.asLabel := fun x => by cases x <;> decide
  have hmark : ∀ x : MarkStatus, Whole (markLabel x) := fun x => by cases x <;> decide
  have hend : ∀ x : GapEnd, Whole x.asLabel := fun x => by cases x <;> decide
  have hint (v : Int64) : Whole (toString v) := whole_of_isPlain (isPlain_toString v)
  have hsource : Whole "?" := by decide
  have hnote : Whole "absence = Musubi says it is missing; not 'no data'" := by decide
  have hversion : Whole (if includeDomain then "4" else exportSchemaVersion) := by
    cases includeDomain <;> decide
  have hgood := whole_getD whole_digestCell (d := "never-observed") (by decide)
  have hgoodFull := whole_getD whole_digestFullCell (d := "never-observed") (by decide)
  have hnext := whole_getD whole_digestCell (d := "open-end") (by decide)
  have hnextFull := whole_getD whole_digestFullCell (d := "open-end") (by decide)
  have hnextMs := whole_getD hint (d := "") (by decide)
  have hnextBasis := whole_getD hbasis (d := "") (by decide)
  have hwall := iff_true_intro (whole_wallCells (if neg.clockBasis = .unknown then none else wall))
  unfold absenceRow rowTexts
  cases src with
  | none =>
    simp only [List.cons_append, List.forall_mem_append, List.forall_mem_cons, List.not_mem_nil,
      false_implies, implies_true, Option.map_none, Option.getD_none, hfamily, hchannel, hbasis,
      hmark, hend, hint, hsource, hnote, hversion, hgood, hgoodFull, hnext, hnextFull, hnextMs,
      hnextBasis, hwall, whole_digestCell, whole_digestFullCell, whole_twoDecimals, true_and,
      and_true]
  | some x =>
    simp only [List.cons_append, List.forall_mem_append, List.forall_mem_cons, List.not_mem_nil,
      false_implies, implies_true, Option.map_some, Option.getD_some, hfamily, hrole, hchannel,
      hbasis, hmark, hend, hint, hnote, hversion, hgood, hgoodFull, hnext, hnextFull, hnextMs,
      hnextBasis, hwall, whole_digestCell, whole_digestFullCell, whole_twoDecimals, true_and,
      and_true]

/-- Texts in a JSON array are quoted. -/
theorem quote_mem_compactItems (t : String) (vs : List JsonText.Value) :
    '"' ∈ JsonText.compactItems (JsonText.text t :: vs) := by
  cases vs with
  | nil => exact List.mem_cons_self
  | cons v vs => exact List.mem_append_left _ List.mem_cons_self

theorem whole_provenance (provenance : List String) :
    Whole (String.ofList (JsonText.Value.array (provenance.map JsonText.text)).compact) := by
  cases provenance with
  | nil => exact whole_of_notMem (by decide)
  | cons t provenance =>
    rintro ⟨-, hplain⟩
    rw [String.toList_ofList] at hplain
    exact (csvQuotes_eq_false_iff.mp hplain).2.1
      (List.mem_cons_of_mem _ (List.mem_append_left _ (quote_mem_compactItems t _)))

/-- The domain cells are names, and texts with quotes. -/
theorem whole_domainCells (out : PipelineOut) (id : String) (family : Family) :
    ∀ s ∈ domainCells out id family, Whole s := by
  have hdomain : ∀ d : PlatformDomain, Whole (domainDebug d) := fun d => by cases d <;> decide
  unfold domainCells
  split
  · exact fun s hs => absurd hs List.not_mem_nil
  · next asset _ =>
    obtain ⟨domain, provenance⟩ := asset.configuredPlatformDomain
    dsimp only
    rw [List.forall_mem_cons, List.forall_mem_cons, List.forall_mem_singleton]
    refine ⟨hdomain domain, ?_, whole_provenance provenance⟩
    split
    · decide
    · split
      · decide
      · decide

/-! ## 5. Lengths -/

theorem length_wallCells (wall : Option (Int64 × Int64 × Int64)) : (wallCells wall).length = 4 := by
  cases wall <;> rfl

theorem length_absenceRow (src : Option SourceRun) (neg : NegativeObservation)
    (bounds : GapBounds) (wall : Option (Int64 × Int64 × Int64)) (mapping : String)
    (includeDomain : Bool) :
    (absenceRow sha256 src neg bounds wall mapping includeDomain).length =
      absenceColumns.length := by
  unfold absenceRow
  rw [List.length_append, List.length_append, length_wallCells]
  rfl

/-- The asset that a row is about is one of the output. -/
def Found (out : PipelineOut) (id : String) (family : Family) : Prop :=
  ∃ a ∈ out.assets, a.assetId = id ∧ a.family = family

theorem length_domainCells_iff (out : PipelineOut) (id : String) (family : Family) :
    (domainCells out id family).length = domainColumns.length ↔ Found out id family := by
  unfold domainCells
  split
  · next hnone =>
    rw [List.find?_eq_none] at hnone
    refine ⟨fun h => absurd h (by decide), ?_⟩
    rintro ⟨a, ha, hid, hfamily⟩
    exact absurd (by simp [hid, hfamily]) (hnone a ha)
  · next asset hsome =>
    have hmatches := List.find?_some hsome
    rw [Bool.and_eq_true, decide_eq_true_eq, decide_eq_true_eq] at hmatches
    have hthree (a b c : String) : [a, b, c].length = domainColumns.length := rfl
    exact iff_of_true (hthree _ _ _) ⟨asset, List.mem_of_find?_eq_some hsome, hmatches⟩

/-! ## 6. The round trip -/

/-- What the rows have from the inputs. -/
def inputTexts (out : PipelineOut) : List String :=
  (out.noticed.flatMap fun n =>
    rowTexts (sourceFor out n.assetId n.sourceIndex) n.negative wallMapped) ++
  out.unmapped.flatMap fun u =>
    rowTexts (sourceFor out u.assetId u.sourceIndex) u.negative u.reason

def DomainsFound (out : PipelineOut) : Prop :=
  (∀ n ∈ out.noticed, Found out n.assetId n.negative.subject.family) ∧
    ∀ u ∈ out.unmapped, Found out u.assetId u.negative.subject.family

/-- A reader finds the header and after it the rows as they are, each as long as the header. -/
def RoundTrips (out : PipelineOut) (includeDomain : Bool) : Prop :=
  Csv.parse (absencesCsvImpl sha256 out includeDomain).toList =
      some ((columns includeDomain :: absenceRecords sha256 out includeDomain).map
        (List.map String.toList)) ∧
    ∀ r ∈ absenceRecords sha256 out includeDomain, r.length = (columns includeDomain).length

/-- The cells of a row, with or without those of the domain. -/
theorem whole_withDomain_iff {cells domain : List String} (includeDomain : Bool)
    (h : ∀ s ∈ domain, Whole s) :
    (∀ s ∈ cells ++ (if includeDomain then domain else []), Whole s) ↔ ∀ s ∈ cells, Whole s := by
  rw [List.forall_mem_append, and_iff_left_iff_imp]
  intro _
  split
  · exact h
  · exact fun s hs => absurd hs List.not_mem_nil

theorem whole_absenceRecords_iff (out : PipelineOut) (includeDomain : Bool) :
    (∀ r ∈ absenceRecords sha256 out includeDomain, ∀ s ∈ r, Whole s) ↔
      ∀ t ∈ inputTexts out, Whole t := by
  unfold absenceRecords inputTexts
  rw [List.forall_mem_append, List.forall_mem_append, List.forall_mem_map, List.forall_mem_map,
    List.forall_mem_flatMap, List.forall_mem_flatMap]
  refine and_congr (forall₂_congr fun n _ => ?_) (forall₂_congr fun u _ => ?_)
  · unfold noticedRecord
    rw [whole_withDomain_iff includeDomain (whole_domainCells out _ _), whole_absenceRow_iff]
  · unfold unmappedRecord
    rw [whole_withDomain_iff includeDomain (whole_domainCells out _ _), whole_absenceRow_iff]

theorem length_withDomain_iff {cells : List String} (out : PipelineOut) (id : String)
    (family : Family) (includeDomain : Bool) (h : cells.length = absenceColumns.length) :
    (cells ++ if includeDomain then domainCells out id family else []).length =
      (columns includeDomain).length ↔ (includeDomain = true → Found out id family) := by
  unfold columns
  rw [List.length_append, List.length_append, h, Nat.add_left_cancel_iff]
  cases includeDomain with
  | false => exact ⟨fun _ h => Bool.noConfusion h, fun _ => rfl⟩
  | true => exact (length_domainCells_iff out id family).trans ⟨fun h _ => h, fun h => h rfl⟩

theorem length_absenceRecords_iff (out : PipelineOut) (includeDomain : Bool) :
    (∀ r ∈ absenceRecords sha256 out includeDomain, r.length = (columns includeDomain).length) ↔
      (includeDomain = true → DomainsFound out) := by
  have hnoticed (n : NoticedRow) :=
    length_withDomain_iff out n.assetId n.negative.subject.family includeDomain
      (length_absenceRow sha256 (sourceFor out n.assetId n.sourceIndex) n.negative n.bounds
        (some (n.sinceWallMs, n.byWallMs, n.boundMs)) wallMapped includeDomain)
  have hunmapped (u : UnmappedRow) :=
    length_withDomain_iff out u.assetId u.negative.subject.family includeDomain
      (length_absenceRow sha256 (sourceFor out u.assetId u.sourceIndex) u.negative u.bounds
        none u.reason includeDomain)
  unfold absenceRecords DomainsFound
  rw [List.forall_mem_append, List.forall_mem_map, List.forall_mem_map]
  constructor
  · rintro ⟨hn, hu⟩ hdomain
    exact ⟨fun n hmem => (hnoticed n).mp (hn n hmem) hdomain,
      fun u hmem => (hunmapped u).mp (hu u hmem) hdomain⟩
  · intro h
    exact ⟨fun n hmem => (hnoticed n).mpr fun hdomain => (h hdomain).1 n hmem,
      fun u hmem => (hunmapped u).mpr fun hdomain => (h hdomain).2 u hmem⟩

/-- The rows are read as they are exactly if no text of the inputs has a bare carriage return. -/
theorem parse_absencesCsvImpl_iff (out : PipelineOut) (includeDomain : Bool) :
    Csv.parse (absencesCsvImpl sha256 out includeDomain).toList =
        some ((columns includeDomain :: absenceRecords sha256 out includeDomain).map
          (List.map String.toList)) ↔
      ∀ t ∈ inputTexts out, ¬ BareReturn t := by
  have hheader : ∀ s ∈ columns includeDomain, Whole s := fun s hs =>
    whole_of_notMem (columns_plain s.toList (List.mem_map_of_mem (mem_columns_true hs))).2
  have hne : ∀ r ∈ columns includeDomain :: absenceRecords sha256 out includeDomain, r ≠ [] := by
    refine List.forall_mem_cons.mpr ⟨List.cons_ne_nil _ _, ?_⟩
    unfold absenceRecords
    rw [List.forall_mem_append, List.forall_mem_map, List.forall_mem_map]
    exact ⟨fun n _ => List.cons_ne_nil _ _, fun u _ => List.cons_ne_nil _ _⟩
  rw [toList_absencesCsvImpl, Csv.parse_writeRows_iff quotesSpecial_csvQuotes, List.forall_mem_map]
  · simp only [quotesReturns_iff]
    rw [List.forall_mem_cons]
    exact (and_iff_right hheader).trans (whole_absenceRecords_iff sha256 out includeDomain)
  · rw [List.forall_mem_map]
    exact fun r hr hnil => hne r hr (List.map_eq_nil_iff.mp hnil)

/-- What the export with the domain has checked before it returns the text, which has the columns
of the domain too. -/
theorem domainsFound_of_ok {out : PipelineOut} {csv : String}
    (h : absencesWithDeclaredDomain sha256 out = .ok csv) :
    csv = absencesCsvImpl sha256 out true ∧ DomainsFound out := by
  unfold absencesWithDeclaredDomain at h
  split at h
  · next hall =>
    cases h
    have hfound : ∀ e ∈ exportedSubjects out, Found out e.1 e.2.2 := by
      intro e he
      have hmatches := List.all_eq_true.mp hall e he
      unfold assetMatches at hmatches
      rw [Bool.and_eq_true, List.any_eq_true] at hmatches
      obtain ⟨a, ha, hboth⟩ := hmatches.2
      rw [Bool.and_eq_true, decide_eq_true_eq, decide_eq_true_eq] at hboth
      exact ⟨a, ha, hboth⟩
    unfold exportedSubjects at hfound
    rw [List.forall_mem_append, List.forall_mem_append, List.forall_mem_map,
      List.forall_mem_map] at hfound
    exact ⟨rfl, hfound.1⟩
  · cases h

/-- **The absences are read back as they were written** exactly if no text of the inputs has a
carriage return and no comma, quote or line feed, and, with the domain columns, the asset of every
row is found; the export with the domain has seen to the latter.  The output is arbitrary and need
not come from an analysis.  `RoundTrips` asks for the header, for every row cell by cell, and that
each is as long as the header. -/
theorem absencesCsv_round_trip_iff (out : PipelineOut) :
    (∀ includeDomain : Bool, RoundTrips sha256 out includeDomain ↔
      (∀ t ∈ inputTexts out, ¬ BareReturn t) ∧ (includeDomain = true → DomainsFound out)) ∧
    ∀ csv : String, absencesWithDeclaredDomain sha256 out = .ok csv →
      csv = absencesCsvImpl sha256 out true ∧ DomainsFound out := by
  refine ⟨fun includeDomain => ?_, fun csv h => domainsFound_of_ok sha256 h⟩
  unfold RoundTrips
  rw [parse_absencesCsvImpl_iff, length_absenceRecords_iff]

/-! ## 7. A heartbeat in one file -/

/-- A log with one heartbeat, under a name of its own. -/
def heartbeatLog (fileName : String) : InputFile :=
  ⟨"ugv-01", .ugv, .gcs, "mavlink_tlog", fileName, []⟩

def heartbeatAnalysis (fileName : String) : Checked String PipelineOut :=
  analyze Sha256.hash (Fanout.heartbeatReader []) [heartbeatLog fileName]
    ⟨[groundProfile], ⟨"t", []⟩⟩ (.explicit 0 60000)

/-- A name with a comma, quotes and both line breaks. -/
theorem quoted_name_round_trips : ∃ out csv,
    heartbeatAnalysis "a,\"b\"\r\n.tlog" = .ok out ∧ out.noticed ≠ [] ∧
    absencesWithDeclaredDomain Sha256.hash out = .ok csv ∧
    RoundTrips Sha256.hash out false ∧ RoundTrips Sha256.hash out true := by
  have hout : ∃ out ∈ (heartbeatAnalysis "a,\"b\"\r\n.tlog").toOption.toList, out.noticed ≠ [] ∧
      (exportedSubjects out).all (assetMatches out) = true ∧
      ∀ t ∈ inputTexts out, ¬ BareReturn t := by
    decide +kernel
  obtain ⟨out, hmem, hnoticed, hall, hbare⟩ := hout
  have hok : heartbeatAnalysis "a,\"b\"\r\n.tlog" = .ok out := ok_of_mem_toOption hmem
  have hcsv : absencesWithDeclaredDomain Sha256.hash out =
      .ok (absencesCsvImpl Sha256.hash out true) := if_pos hall
  have hfound := ((absencesCsv_round_trip_iff Sha256.hash out).2 _ hcsv).2
  exact ⟨out, _, hok, hnoticed, hcsv,
    ((absencesCsv_round_trip_iff Sha256.hash out).1 false).mpr ⟨hbare, fun _ => hfound⟩,
    ((absencesCsv_round_trip_iff Sha256.hash out).1 true).mpr ⟨hbare, fun _ => hfound⟩⟩

/-- A carriage return alone in the name is left without quotes, and the text is not CSV. -/
theorem bare_return_not_read : ∃ out csv,
    heartbeatAnalysis "ugv\r01.tlog" = .ok out ∧
    absencesWithDeclaredDomain Sha256.hash out = .ok csv ∧
    ¬ RoundTrips Sha256.hash out false ∧ ¬ RoundTrips Sha256.hash out true := by
  have hout : ∃ out ∈ (heartbeatAnalysis "ugv\r01.tlog").toOption.toList,
      (exportedSubjects out).all (assetMatches out) = true ∧
      ¬ ∀ t ∈ inputTexts out, ¬ BareReturn t := by
    decide +kernel
  obtain ⟨out, hmem, hall, hbare⟩ := hout
  refine ⟨out, _, ok_of_mem_toOption hmem, if_pos hall, ?_, ?_⟩
  · exact fun h => hbare ((parse_absencesCsvImpl_iff Sha256.hash out false).mp h.1)
  · exact fun h => hbare ((parse_absencesCsvImpl_iff Sha256.hash out true).mp h.1)

end Musubi.Pipeline
