/-
# Decoded CSV

`decoded-csv/src/lib.rs`: a table without quotes, of which one column is a counter of microseconds
since boot.  Three options let in what is refused otherwise: a table without rows, rows at equal
times, and numbers that are not finite, which stay texts.  An option changes nothing about a table
that is accepted without it (`parseWithOptions_mono`).

An option is asked in one place, where a refusal would follow, and each of these places has a
lemma: under more options it refuses less and returns the same.  Composing them along the loop
over the rows gives the result, with the row that was read last as the state.

The second result says what an accepted table is (`Accepted`): its columns are the cells of the
header with their units taken off, each row is read from its own line, cell by cell, and the times
ascend, strictly unless an option allows equal ones.  It is the invariant of the same loop.
-/
import Musubi.FloatText
import Musubi.Lib.Lines
import Musubi.Lib.ParseInt
import Musubi.Lib.Result
import Musubi.Lib.Utf8
import Musubi.Northbound.WirePolicy

namespace Musubi.DecodedCsv

open Lib Northbound.WirePolicy

/-! ## 1. Tables -/

inductive Value
  | integer (v : Int64)
  | number (v : F64)
  | text (s : String)
  | blank
deriving DecidableEq

structure Column where
  name : String
  unit : Option String
deriving DecidableEq

structure Row where
  sourceLine : ℕ
  bootUs : ℕ
  values : List Value
deriving DecidableEq

structure Table where
  columns : List Column
  rows : List Row
deriving DecidableEq

structure ParseError where
  line : ℕ
  reason : String
deriving DecidableEq

def error {α : Type} (line : ℕ) (reason : String) : Except ParseError α := .error ⟨line, reason⟩

/-! ## 2. Cells -/

/-- The unit between the brackets behind a name. -/
def unitOf (suffix : List Char) : Except ParseError String :=
  if suffix.getLast? ≠ some ')' then error 1 "invalid unit suffix"
  else if suffix.dropLast = [] ∨ '(' ∈ suffix.dropLast ∨ ')' ∈ suffix.dropLast then
    error 1 "invalid unit suffix"
  else .ok (String.ofList suffix.dropLast)

/-- The name of a column, and its unit where there is one. -/
def splitUnit (text : List Char) : Except ParseError (List Char × Option String) :=
  match find [' ', '('] text with
  | some i => (unitOf (text.drop (i + 2))).map fun unit => (trim (text.take i), some unit)
  | none => .ok (text, none)

def column (text : List Char) : Except ParseError Column := do
  let (name, unit) ← splitUnit (trim text)
  if name.isEmpty then error 1 "empty column name" else .ok ⟨String.ofList name, unit⟩

/-- An integer that no `i64` holds stays the text that it is. -/
def value (line : ℕ) (preserveNonfiniteAsText : Bool) (text : List Char) :
    Except ParseError Value :=
  let text := trim text
  if text.isEmpty then .ok .blank
  else match parseI64 text with
    | some integer => .ok (.integer integer)
    | none => match F64.parse (String.ofList text) with
      | some number =>
        if !number.isFinite then
          if preserveNonfiniteAsText then .ok (.text (String.ofList text))
          else error line "non-finite number"
        else if (text.dropWhile fun c => c = '-' ∨ c = '+').all Char.isDigit then
          .ok (.text (String.ofList text))
        else .ok (.number number)
      | none => .ok (.text (String.ofList text))

/-! ## 3. Rows -/

structure ParseOptions where
  allowEmptyRows : Bool := false
  allowEqualTime : Bool := false
  preserveNonfiniteAsText : Bool := false
deriving DecidableEq

/-- The columns must have different names, the time among them, in microseconds. -/
def timeIndexOf (columns : List Column) (timeColumn : String) : Except ParseError ℕ :=
  if ¬ (columns.map Column.name).Nodup then error 1 "duplicate column name"
  else match columns.findIdx? (·.name = timeColumn) with
    | none => error 1 "missing time column"
    | some timeIndex =>
      if columns.length < 2 then error 1 "no observation columns"
      else if (columns[timeIndex]?.bind Column.unit).any (· ≠ "us") then
        error 1 "time unit must be us"
      else .ok timeIndex

def bootUsOf (cell : List Char) : Option ℕ :=
  (parseI64 (trim cell)).bind fun v => if 0 ≤ v.toInt then some v.toInt.toNat else none

/-- The rows so far, and the time of the last one, which the next may not be before. -/
structure Reading where
  rows : List Row
  previous : Option ℕ

/-- A row that may not follow one at `previous`. -/
def outOfOrder (options : ParseOptions) (previous : Option ℕ) (bootUs : ℕ) : Bool :=
  previous.any fun p => bootUs < p ∨ !options.allowEqualTime ∧ bootUs = p

def readRow (width timeIndex : ℕ) (options : ParseOptions) (s : Reading)
    (entry : List Char × ℕ) : Except ParseError Reading :=
  let (line, index) := entry
  let lineNumber := index + 2
  let cells := line.splitOn ','
  if (trim line).isEmpty then error lineNumber "blank data row"
  else if cells.length ≠ width then error lineNumber "row width differs from header"
  else match bootUsOf (cells.getD timeIndex []) with
    | none => error lineNumber "time must be a nonnegative integer"
    | some bootUs =>
      if outOfOrder options s.previous bootUs then
        error lineNumber "time must be strictly increasing"
      else (cells.mapM (value lineNumber options.preserveNonfiniteAsText)).map fun values =>
        ⟨s.rows ++ [⟨lineNumber, bootUs, values⟩], some bootUs⟩

/-! ## 4. `parse_with_options` -/

/-- The table under a header. -/
def parseTable (columns : List Column) (timeIndex : ℕ) (options : ParseOptions)
    (lines : List (List Char)) : Except ParseError Table := do
  let s ← lines.zipIdx.foldlM (readRow columns.length timeIndex options) ⟨[], none⟩
  if s.rows.isEmpty ∧ !options.allowEmptyRows then error 2 "no data rows"
  else .ok ⟨columns, s.rows⟩

def parseLines (timeColumn : String) (options : ParseOptions) :
    List (List Char) → Except ParseError Table
  | [] => error 1 "empty input"
  | header :: lines => do
    let columns ← (header.splitOn ',').mapM column
    let timeIndex ← timeIndexOf columns timeColumn
    parseTable columns timeIndex options lines

def parseWithOptions (bytes : List UInt8) (timeColumn : String) (options : ParseOptions) :
    Except ParseError Table :=
  match fromUtf8 bytes with
  | .error _ => error 1 "not UTF-8"
  | .ok text =>
    if '"' ∈ text.toList ∨ '\x00' ∈ text.toList then
      error 1 "quoted or binary input is unsupported"
    else parseLines timeColumn options (lines text.toList)

def parse (bytes : List UInt8) (timeColumn : String) : Except ParseError Table :=
  parseWithOptions bytes timeColumn {}

def parseNonDecreasing (bytes : List UInt8) (timeColumn : String) : Except ParseError Table :=
  parseWithOptions bytes timeColumn { allowEqualTime := true }

/-! ## 5. Options only widen -/

/-- `o'` enables what `o` does.  It is a preorder on options, with every option off at the bottom.
-/
structure ParseOptions.Le (o o' : ParseOptions) : Prop where
  allowEmptyRows : o.allowEmptyRows = true → o'.allowEmptyRows = true
  allowEqualTime : o.allowEqualTime = true → o'.allowEqualTime = true
  preserveNonfiniteAsText : o.preserveNonfiniteAsText = true → o'.preserveNonfiniteAsText = true

theorem value_mono {line : ℕ} {p p' : Bool} (hp : p = true → p' = true) {text : List Char}
    {v : Value} (h : value line p text = .ok v) : value line p' text = .ok v := by
  unfold value at h ⊢
  dsimp only at h ⊢
  split at h
  · next hempty => rwa [if_pos hempty]
  next hempty =>
  rw [if_neg hempty]
  cases hint : parseI64 (trim text) with
  | some integer => rwa [hint] at h
  | none =>
    rw [hint] at h
    dsimp only at h ⊢
    cases hnumber : F64.parse (String.ofList (trim text)) with
    | none =>
      rw [hnumber] at h
      dsimp only at h ⊢
      exact h
    | some number =>
      rw [hnumber] at h
      dsimp only at h ⊢
      split at h
      · next hfinite =>
        rw [if_pos hfinite]
        split at h
        · next hpreserve => rwa [if_pos (hp hpreserve)]
        · cases h
      · next hfinite => rwa [if_neg hfinite]

/-- **What is read of a line**: its cells, one for each column, the time among them, and nothing
of any other line. -/
structure ReadFrom (width timeIndex : ℕ) (options : ParseOptions) (previous : Option ℕ)
    (entry : List Char × ℕ) (row : Row) : Prop where
  not_blank : (trim entry.1).isEmpty = false
  width_eq : (entry.1.splitOn ',').length = width
  sourceLine_eq : row.sourceLine = entry.2 + 2
  bootUs_eq : bootUsOf ((entry.1.splitOn ',').getD timeIndex []) = some row.bootUs
  in_order : outOfOrder options previous row.bootUs = false
  values_eq : (entry.1.splitOn ',').mapM
    (value (entry.2 + 2) options.preserveNonfiniteAsText) = .ok row.values

theorem readRow_eq_ok {width timeIndex : ℕ} {options : ParseOptions} {s s' : Reading}
    {entry : List Char × ℕ} : readRow width timeIndex options s entry = .ok s' ↔
      ∃ row, ReadFrom width timeIndex options s.previous entry row ∧
        s' = ⟨s.rows ++ [row], some row.bootUs⟩ := by
  obtain ⟨line, index⟩ := entry
  constructor
  · intro h
    unfold readRow at h
    dsimp only at h
    split at h
    · cases h
    next hblank =>
    split at h
    · cases h
    next hwidth =>
    split at h
    · cases h
    next bootUs hboot =>
    split at h
    · cases h
    next horder =>
    obtain ⟨values, hvalues, rfl⟩ := map_eq_ok.mp h
    exact ⟨⟨index + 2, bootUs, values⟩,
      ⟨Bool.eq_false_iff.mpr hblank, not_not.mp hwidth, rfl, hboot,
      Bool.eq_false_iff.mpr horder, hvalues⟩, rfl⟩
  · rintro ⟨⟨sourceLine, bootUs, values⟩, h, rfl⟩
    obtain rfl : sourceLine = index + 2 := h.sourceLine_eq
    unfold readRow
    dsimp only
    rw [if_neg (Bool.eq_false_iff.mp h.not_blank), if_neg (not_not.mpr h.width_eq), h.bootUs_eq]
    dsimp only
    rw [if_neg (Bool.eq_false_iff.mp h.in_order), h.values_eq]
    rfl

theorem ReadFrom.mono {width timeIndex : ℕ} {o o' : ParseOptions} (ho : o.Le o')
    {previous : Option ℕ} {entry : List Char × ℕ} {row : Row}
    (h : ReadFrom width timeIndex o previous entry row) :
    ReadFrom width timeIndex o' previous entry row := by
  refine ⟨h.not_blank, h.width_eq, h.sourceLine_eq, h.bootUs_eq, ?_, ?_⟩
  · have horder := h.in_order
    cases previous with
    | none => rfl
    | some p =>
      have hequal := ho.allowEqualTime
      cases hallow : o.allowEqualTime with
      | true => simpa [outOfOrder, hallow, hequal hallow] using horder
      | false =>
        simp only [outOfOrder, hallow, Option.any_some, decide_eq_false_iff_not] at horder ⊢
        simp only [Bool.not_false, true_and] at horder
        tauto
  · refine mapM_eq_ok.mpr ((mapM_eq_ok.mp h.values_eq).imp fun cell v hv => ?_)
    exact value_mono ho.preserveNonfiniteAsText hv

theorem readRow_mono {width timeIndex : ℕ} {o o' : ParseOptions} (ho : o.Le o') {s s' : Reading}
    {entry : List Char × ℕ} (h : readRow width timeIndex o s entry = .ok s') :
    readRow width timeIndex o' s entry = .ok s' := by
  obtain ⟨row, hrow, heq⟩ := readRow_eq_ok.mp h
  exact readRow_eq_ok.mpr ⟨row, hrow.mono ho, heq⟩

theorem parseTable_mono {columns : List Column} {timeIndex : ℕ} {o o' : ParseOptions}
    (ho : o.Le o') {lines : List (List Char)} {t : Table}
    (h : parseTable columns timeIndex o lines = .ok t) :
    parseTable columns timeIndex o' lines = .ok t := by
  obtain ⟨s, hs, h⟩ := bind_eq_ok.mp h
  refine bind_eq_ok.mpr ⟨s, foldlM_ok_mono (fun _ _ _ => readRow_mono ho) hs, ?_⟩
  by_cases hrows : s.rows.isEmpty = true
  · cases hallow : o.allowEmptyRows with
    | true =>
      rw [if_neg (by simp [hallow])] at h
      rwa [if_neg (by simp [ho.allowEmptyRows hallow])]
    | false =>
      rw [if_pos ⟨hrows, by simp [hallow]⟩] at h
      cases h
  · rw [if_neg fun hboth => hrows hboth.1] at h ⊢
    exact h

theorem parseLines_mono {timeColumn : String} {o o' : ParseOptions} (ho : o.Le o')
    {lines : List (List Char)} {t : Table} (h : parseLines timeColumn o lines = .ok t) :
    parseLines timeColumn o' lines = .ok t := by
  cases lines with
  | nil => cases h
  | cons header lines =>
    obtain ⟨columns, hcolumns, h⟩ := bind_eq_ok.mp h
    obtain ⟨timeIndex, htime, h⟩ := bind_eq_ok.mp h
    exact bind_eq_ok.mpr ⟨columns, hcolumns, bind_eq_ok.mpr ⟨timeIndex, htime,
      parseTable_mono ho h⟩⟩

/-- **An option that is enabled besides changes nothing that was accepted.** The order on options
is field by field, so this covers any number of them at once. -/
theorem parseWithOptions_mono {bytes : List UInt8} {timeColumn : String} {o o' : ParseOptions}
    (ho : o.Le o') {t : Table} (h : parseWithOptions bytes timeColumn o = .ok t) :
    parseWithOptions bytes timeColumn o' = .ok t := by
  unfold parseWithOptions at h ⊢
  cases htext : fromUtf8 bytes with
  | error e =>
    rw [htext] at h
    cases h
  | ok text =>
    rw [htext] at h
    dsimp only at h ⊢
    split at h
    · cases h
    next hplain =>
    rw [if_neg hplain]
    exact parseLines_mono ho h

/-! ## 6. Tables that are accepted -/

/-- The order of the rows. -/
def InTime (options : ParseOptions) (row row' : Row) : Prop :=
  if options.allowEqualTime then row.bootUs ≤ row'.bootUs else row.bootUs < row'.bootUs

theorem InTime.trans {options : ParseOptions} {a b c : Row} (hab : InTime options a b)
    (hbc : InTime options b c) : InTime options a c := by
  unfold InTime at *
  cases hallow : options.allowEqualTime with
  | true =>
    simp only [hallow, if_true] at *
    omega
  | false =>
    simp only [hallow, Bool.false_eq_true, if_false] at *
    omega

theorem inTime_of_in_order {options : ParseOptions} {last row : Row}
    (h : outOfOrder options (some last.bootUs) row.bootUs = false) : InTime options last row := by
  simp only [outOfOrder, Option.any_some, decide_eq_false_iff_not] at h
  unfold InTime
  cases hallow : options.allowEqualTime with
  | true =>
    simp only [hallow, Bool.not_true, Bool.false_eq_true, false_and, or_false] at h
    simp only [if_true]
    omega
  | false =>
    simp only [hallow, Bool.not_false, true_and] at h
    simp only [Bool.false_eq_true, if_false]
    omega

/-- What has been read of the lines that have been gone through: each row from its own line, in
the order of their times, and the last time is remembered. -/
structure Rows (width timeIndex : ℕ) (options : ParseOptions) (done : List (List Char × ℕ))
    (s : Reading) : Prop where
  from_lines : List.Forall₂ (fun entry row =>
    ∃ previous, ReadFrom width timeIndex options previous entry row) done s.rows
  in_time : s.rows.Pairwise (InTime options)
  previous_eq : s.previous = s.rows.getLast?.map Row.bootUs

theorem Rows.step {width timeIndex : ℕ} {options : ParseOptions} {done : List (List Char × ℕ)}
    {s s' : Reading} (h : Rows width timeIndex options done s) {entry : List Char × ℕ}
    (hstep : readRow width timeIndex options s entry = .ok s') :
    Rows width timeIndex options (done ++ [entry]) s' := by
  obtain ⟨row, hrow, rfl⟩ := readRow_eq_ok.mp hstep
  refine ⟨List.rel_append h.from_lines (.cons ⟨_, hrow⟩ .nil), ?_, by simp⟩
  refine List.pairwise_append.mpr ⟨h.in_time, List.pairwise_singleton _ _, ?_⟩
  intro before hbefore row' hrow'
  obtain rfl := List.mem_singleton.mp hrow'
  have horder := hrow.in_order
  rw [h.previous_eq] at horder
  rcases List.eq_nil_or_concat s.rows with hnil | ⟨front, last, hrows⟩
  · rw [hnil] at hbefore
    cases hbefore
  · have hin := h.in_time
    rw [hrows, List.concat_eq_append] at horder hbefore hin
    rw [List.getLast?_concat] at horder
    have hlast : InTime options last row' := inTime_of_in_order horder
    rcases List.mem_append.mp hbefore with hfront | hmem
    · exact ((List.pairwise_append.mp hin).2.2 before hfront last
        (List.mem_singleton_self _)).trans hlast
    · rwa [List.mem_singleton.mp hmem]

/-- A table under a header.  Its time is one of its columns, each row is read from its own line, and
the rows are in the order of their times. -/
structure Accepted (timeColumn : String) (options : ParseOptions) (t : Table) : Prop where
  nodup : (t.columns.map Column.name).Nodup
  width : ∀ row ∈ t.rows, row.values.length = t.columns.length
  in_time : t.rows.Pairwise fun row row' =>
    row.bootUs ≤ row'.bootUs ∧ (options.allowEqualTime = false → row.bootUs < row'.bootUs)
  time : ∃ timeIndex : ℕ, (t.columns[timeIndex]?.map Column.name) = some timeColumn ∧
    ∀ row ∈ t.rows, ∃ v : Int64, row.values[timeIndex]? = some (Value.integer v) ∧
      v.toInt = row.bootUs
  sourceLines : t.rows.map Row.sourceLine = List.range' 2 t.rows.length
  finite : ∀ row ∈ t.rows, ∀ number, Value.number number ∈ row.values → number.isFinite = true

theorem value_finite {line : ℕ} {preserve : Bool} {text : List Char} {number : F64}
    (h : value line preserve text = .ok (.number number)) : number.isFinite = true := by
  unfold value at h
  dsimp only at h
  split at h
  · cases h
  split at h
  · cases h
  split at h
  · next parsed _ =>
    split at h
    · split at h <;> cases h
    next hfinite =>
    split at h
    · cases h
    · cases h
      simpa using hfinite
  · cases h

/-- The value of a cell that holds a time: it is read as an integer whatever the options are, so a
time has one value. -/
theorem value_of_bootUsOf {line : ℕ} {preserve : Bool} {text : List Char} {bootUs : ℕ}
    (h : bootUsOf text = some bootUs) :
    ∃ v : Int64, value line preserve text = .ok (.integer v) ∧ v.toInt = bootUs := by
  obtain ⟨v, hv, h⟩ := Option.bind_eq_some_iff.mp h
  have hnonempty : (trim text).isEmpty = false := by
    cases htext : trim text with
    | nil =>
      rw [htext] at hv
      cases hv
    | cons c text => rfl
  refine ⟨v, ?_, ?_⟩
  · unfold value
    dsimp only
    rw [hnonempty, hv]
    rfl
  · split at h
    · next hpos => rw [← Option.some.inj h, Int.toNat_of_nonneg hpos]
    · cases h

theorem timeIndexOf_eq_ok {columns : List Column} {timeColumn : String} {timeIndex : ℕ}
    (h : timeIndexOf columns timeColumn = .ok timeIndex) :
    (columns.map Column.name).Nodup ∧ columns[timeIndex]?.map Column.name = some timeColumn := by
  unfold timeIndexOf at h
  split at h
  · cases h
  next hnodup =>
  refine ⟨not_not.mp hnodup, ?_⟩
  split at h
  · cases h
  next i hi =>
  split at h
  · cases h
  split at h
  · cases h
  obtain rfl := Except.ok.inj h
  obtain ⟨hlt, hname, -⟩ := List.findIdx?_eq_some_iff_getElem.mp hi
  rw [List.getElem?_eq_getElem hlt, Option.map_some, of_decide_eq_true hname]

namespace ReadFrom

variable {width timeIndex : ℕ} {options : ParseOptions} {previous : Option ℕ}
  {entry : List Char × ℕ} {row : Row}

theorem length_values (h : ReadFrom width timeIndex options previous entry row) :
    row.values.length = width := by
  rw [← (mapM_eq_ok.mp h.values_eq).length_eq, h.width_eq]

/-- The time of a row is the value of its time cell. -/
theorem time_value (h : ReadFrom width timeIndex options previous entry row)
    (htime : timeIndex < width) :
    ∃ v : Int64, row.values[timeIndex]? = some (.integer v) ∧ v.toInt = row.bootUs := by
  have hcells : timeIndex < (entry.1.splitOn ',').length := by rwa [h.width_eq]
  have hvalues : timeIndex < row.values.length := by rwa [h.length_values]
  have hcell := (List.forall₂_iff_get.mp (mapM_eq_ok.mp h.values_eq)).2 timeIndex hcells hvalues
  have hboot := h.bootUs_eq
  rw [List.getD_eq_getElem?_getD, List.getElem?_eq_getElem hcells, Option.getD_some] at hboot
  obtain ⟨v, hv, hint⟩ : ∃ v : Int64, value (entry.2 + 2) options.preserveNonfiniteAsText _ =
      .ok (.integer v) ∧ v.toInt = row.bootUs := value_of_bootUsOf hboot
  refine ⟨v, ?_, hint⟩
  rw [List.getElem?_eq_getElem hvalues]
  exact congrArg some (Except.ok.inj (hcell.symm.trans hv))

theorem finite (h : ReadFrom width timeIndex options previous entry row) :
    ∀ number, Value.number number ∈ row.values → number.isFinite = true := by
  intro number hmem
  obtain ⟨cell, -, hcell⟩ := exists_of_mem_mapM h.values_eq hmem
  exact value_finite hcell

end ReadFrom

/-- Every row is read from a line. -/
theorem Rows.exists_readFrom {width timeIndex : ℕ} {options : ParseOptions}
    {done : List (List Char × ℕ)} {s : Reading} (h : Rows width timeIndex options done s)
    {row : Row}
    (hrow : row ∈ s.rows) : ∃ entry previous,
      ReadFrom width timeIndex options previous entry row := by
  have hall := h.from_lines
  clear h
  generalize s.rows = rows at hall hrow
  induction hall with
  | nil => cases hrow
  | cons hread _ ih =>
    rcases List.mem_cons.mp hrow with rfl | hrow
    · obtain ⟨previous, hread⟩ := hread
      exact ⟨_, previous, hread⟩
    · exact ih hrow

theorem Rows.sourceLines {width timeIndex : ℕ} {options : ParseOptions} {lines : List (List Char)}
    {s : Reading} (h : Rows width timeIndex options lines.zipIdx s) :
    s.rows.map Row.sourceLine = List.range' 2 s.rows.length := by
  have hlines : s.rows.map Row.sourceLine = lines.zipIdx.map fun entry => 2 + entry.2 := by
    have hall := h.from_lines
    generalize s.rows = rows at hall
    generalize lines.zipIdx = entries at hall
    induction hall with
    | nil => rfl
    | cons hread _ ih =>
      obtain ⟨previous, hread⟩ := hread
      rw [List.map_cons, List.map_cons, ih, hread.sourceLine_eq, Nat.add_comm]
  have hlength : s.rows.length = lines.length := by
    rw [← h.from_lines.length_eq, List.length_zipIdx]
  calc s.rows.map Row.sourceLine
      = (lines.zipIdx.map Prod.snd).map (2 + ·) := by rw [hlines, List.map_map]; rfl
    _ = List.range' 2 s.rows.length := by
        rw [List.zipIdx_map_snd, List.map_add_range', hlength]

theorem accepted_of_parseTable {columns : List Column} {timeColumn : String} {timeIndex : ℕ}
    {options : ParseOptions} {lines : List (List Char)} {t : Table}
    (htime : timeIndexOf columns timeColumn = .ok timeIndex)
    (h : parseTable columns timeIndex options lines = .ok t) : Accepted timeColumn options t := by
  obtain ⟨s, hs, h⟩ := bind_eq_ok.mp h
  have hstart : Rows columns.length timeIndex options [] ⟨[], none⟩ :=
    ⟨.nil, List.Pairwise.nil, rfl⟩
  have hrows : Rows columns.length timeIndex options lines.zipIdx s :=
    foldlM_ok_done (fun _ _ _ _ h hstep => h.step hstep) hstart hs
  obtain ⟨hnodup, hname⟩ := timeIndexOf_eq_ok htime
  have hlt : timeIndex < columns.length := by
    by_contra hge
    rw [List.getElem?_eq_none (not_lt.mp hge)] at hname
    cases hname
  split at h
  · cases h
  obtain rfl := Except.ok.inj h
  refine ⟨hnodup, ?_, ?_, ⟨timeIndex, hname, ?_⟩, hrows.sourceLines, ?_⟩
  · intro row hrow
    obtain ⟨entry, previous, hread⟩ := hrows.exists_readFrom hrow
    exact hread.length_values
  · refine hrows.in_time.imp ?_
    intro row row' hin
    unfold InTime at hin
    split at hin
    · next hallow => exact ⟨hin, fun hno => absurd hallow (by rw [hno]; exact Bool.false_ne_true)⟩
    · exact ⟨hin.le, fun _ => hin⟩
  · intro row hrow
    obtain ⟨entry, previous, hread⟩ := hrows.exists_readFrom hrow
    exact hread.time_value hlt
  · intro row hrow
    obtain ⟨entry, previous, hread⟩ := hrows.exists_readFrom hrow
    exact hread.finite

/-- **Options only widen what is accepted**, and what is accepted is a table.  The hypothesis is
that the bytes were accepted under some options; the first part compares with every set of options
that enables at least those, and has the very same table come out, so that turning an option on is
never a reason to read old files again. -/
theorem decoded_csv_widens {bytes : List UInt8} {timeColumn : String} {o : ParseOptions} {t : Table}
    (h : parseWithOptions bytes timeColumn o = .ok t) :
    (∀ o' : ParseOptions, o.Le o' → parseWithOptions bytes timeColumn o' = .ok t) ∧
      Accepted timeColumn o t := by
  refine ⟨fun o' ho => parseWithOptions_mono ho h, ?_⟩
  unfold parseWithOptions at h
  split at h
  · cases h
  split at h
  · cases h
  next text _ _ =>
  cases hlines : lines text.toList with
  | nil =>
    rw [hlines] at h
    cases h
  | cons header rest =>
    rw [hlines] at h
    obtain ⟨columns, -, h⟩ := bind_eq_ok.mp h
    obtain ⟨timeIndex, htime, h⟩ := bind_eq_ok.mp h
    exact accepted_of_parseTable htime h

theorem decoded_csv_widens_two_rows :
    (∀ o' : ParseOptions, ParseOptions.Le {} o' →
      parseWithOptions ("t (us),a\n1,2\n3,x".toList.map fun c => .ofNat c.toNat) "t" o' =
        .ok ⟨[⟨"t", some "us"⟩, ⟨"a", none⟩],
          [⟨2, 1, [.integer 1, .integer 2]⟩, ⟨3, 3, [.integer 3, .text "x"]⟩]⟩) ∧
      Accepted "t" {} ⟨[⟨"t", some "us"⟩, ⟨"a", none⟩],
        [⟨2, 1, [.integer 1, .integer 2]⟩, ⟨3, 3, [.integer 3, .text "x"]⟩]⟩ :=
  decoded_csv_widens (by decide +kernel)

end Musubi.DecodedCsv
