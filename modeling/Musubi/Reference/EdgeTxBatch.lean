/-
# What a handset log has to be

A recording is read when its header is, every row by itself gives an observation, and no row is
earlier than the one above it.  So the rows of a recording that is read are those of its lines
(`read_pieces`), whichever of them stand behind the header.

The source reads text, lines of text, and rows; a stream cuts bytes.  Section 2 goes between the
two: bytes are a text with certain lines exactly when their pieces, each with its line feed, are
texts with one line each (`textLines_firstPiece`), because a line feed is never part of a longer
character.  After that `read` is a statement about pieces, and adding one more is a local change.
-/
import Mathlib.Data.List.Chain
import Musubi.Lib.Pieces
import Musubi.Reference.EdgeTx

namespace Musubi.Reference.EdgeTx

open Lib Musubi.Core Northbound.WirePolicy

/-! ## 1. Rows -/

/-- A refusal names the line, and its success does not. -/
theorem checkedCells_eq_ok (profile : FamilyProfile) (cols : List String) (ln ln' : ℕ)
    (line : List Char) {cells : List (List Char)} :
    checkedCells profile cols ln line = .ok cells ↔
      checkedCells profile cols ln' line = .ok cells := by
  unfold checkedCells malformed
  split
  · exact iff_of_false (fun h => by cases h) (fun h => by cases h)
  · split
    · exact iff_of_false (fun h => by cases h) (fun h => by cases h)
    · split
      · exact iff_of_false (fun h => by cases h) (fun h => by cases h)
      · exact Iff.rfl

theorem rowTime_eq_ok (time : TimeCol) (ln ln' : ℕ) (cells : List (List Char))
    {tMs : Int64 × Bool} : rowTime time ln cells = .ok tMs ↔ rowTime time ln' cells = .ok tMs := by
  unfold rowTime malformed
  cases time with
  | rtc di ti =>
    dsimp only
    split
    · exact Iff.rfl
    · exact iff_of_false (fun h => by cases h) (fun h => by cases h)
  | tmr10ms i =>
    dsimp only
    split
    · exact Iff.rfl
    · exact iff_of_false (fun h => by cases h) (fun h => by cases h)

variable {sha256 : List UInt8 → Digest} {profile : FamilyProfile} {layout : Layout}

theorem rowObservation_eq_ok (cols : List String) (ln ln' : ℕ) (cells : List (List Char))
    (time : Int64 × Bool) {o : Observation} :
    rowObservation sha256 profile cols ln cells time = .ok o ↔
      rowObservation sha256 profile cols ln' cells time = .ok o := by
  unfold rowObservation malformed
  dsimp only
  split
  · exact iff_of_false (fun h => by cases h) (fun h => by cases h)
  · exact Iff.rfl

theorem tMs_of_rowObservation {cols : List String} {ln : ℕ} {cells : List (List Char)}
    {time : Int64 × Bool} {o : Observation}
    (h : rowObservation sha256 profile cols ln cells time = .ok o) : o.tMs = time.1 := by
  unfold rowObservation malformed at h
  dsimp only at h
  split at h
  · cases h
  · cases h
    rfl

variable (sha256 profile layout) in
/-- A line by itself gives an observation: its cells are read, its time is, and the observation is
made of both.  The number of the line is only in errors. -/
def RowGives (line : List Char) (o : Observation) : Prop :=
  ∃ cells time, checkedCells profile layout.cols 0 line = .ok cells ∧
    rowTime layout.timeCol 0 cells = .ok time ∧
    rowObservation sha256 profile layout.cols 0 cells time = .ok o

/-- **One row**: it gives an observation, which is not before the last one. -/
theorem readRow_eq_ok {state state' : RowState} {line : List Char} {ln : ℕ} :
    readRow sha256 profile layout state (line, ln) = .ok state' ↔
      ∃ o, RowGives sha256 profile layout line o ∧ (∀ t ∈ state.previous, t ≤ o.tMs) ∧
        state' = ⟨some o.tMs, state.out ++ [o]⟩ := by
  unfold readRow RowGives malformed
  dsimp only
  simp only [bind_eq_ok, checkedCells_eq_ok profile layout.cols ln 0,
    rowTime_eq_ok layout.timeCol ln 0]
  constructor
  · rintro ⟨cells, hcells, time, htime, h⟩
    split at h
    · cases h
    · next hprevious =>
      obtain ⟨o, ho, h⟩ := bind_eq_ok.mp h
      cases h
      rw [rowObservation_eq_ok layout.cols ln 0] at ho
      rw [← tMs_of_rowObservation ho]
      refine ⟨o, ⟨cells, time, hcells, htime, ho⟩, fun t ht => ?_, rfl⟩
      rw [Option.mem_def.mp ht, ← tMs_of_rowObservation ho] at hprevious
      simpa using hprevious
  · rintro ⟨o, ⟨cells, time, hcells, htime, ho⟩, hprevious, rfl⟩
    have htMs := tMs_of_rowObservation ho
    refine ⟨cells, hcells, time, htime, ?_⟩
    rw [if_neg, (rowObservation_eq_ok layout.cols ln 0 cells time).mpr ho, ← htMs]
    · rfl
    · rw [Option.any_eq_true]
      rintro ⟨t, ht, hlt⟩
      have hle := hprevious t ht
      rw [htMs] at hle
      simp only [decide_eq_true_eq] at hlt
      exact absurd hlt (Int64.not_lt.mpr hle)

/-- Observations in the order of their times. -/
def Ordered (obs : List Observation) : Prop := obs.IsChain (fun a b => a.tMs ≤ b.tMs)

/-- **The rows**: each of them gives an observation, in the order of their times. -/
theorem readRows_eq_ok (rows : List (List Char)) : ∀ (ln : ℕ) (state : RowState)
    {out : List Observation},
    (∃ state', (rows.zipIdx ln).foldlM (readRow sha256 profile layout) state = .ok state' ∧
        state'.out = out) ↔
      ∃ obs, List.Forall₂ (RowGives sha256 profile layout) rows obs ∧ Ordered obs ∧
        (∀ t ∈ state.previous, ∀ o ∈ obs.head?, t ≤ o.tMs) ∧ out = state.out ++ obs := by
  induction rows with
  | nil =>
    intro ln state out
    constructor
    · rintro ⟨state', h, rfl⟩
      cases h
      exact ⟨[], .nil, .nil, by simp, (List.append_nil _).symm⟩
    · rintro ⟨obs, hall, _, _, rfl⟩
      cases hall
      exact ⟨state, rfl, (List.append_nil _).symm⟩
  | cons line rows ih =>
    intro ln state out
    rw [List.zipIdx_cons]
    simp only [List.foldlM_cons, bind_eq_ok, readRow_eq_ok]
    constructor
    · rintro ⟨state', ⟨next, ⟨o, ho, hprevious, rfl⟩, h⟩, rfl⟩
      obtain ⟨obs, hall, hordered, hhead, hout⟩ := (ih _ _).mp ⟨state', h, rfl⟩
      refine ⟨o :: obs, .cons ho hall, ?_, ?_, ?_⟩
      · exact List.isChain_cons.mpr ⟨fun next hnext => hhead _ rfl next hnext, hordered⟩
      · intro t ht first hfirst
        cases hfirst
        exact hprevious t ht
      · rw [hout, List.append_assoc, List.singleton_append]
    · rintro ⟨obs, hall, hordered, hhead, rfl⟩
      cases hall with
      | cons ho hall =>
        rename_i o obs
        obtain ⟨hfirst, hordered⟩ := List.isChain_cons.mp hordered
        have hnext : ∀ t ∈ some o.tMs, ∀ next ∈ obs.head?, t ≤ next.tMs := by
          intro t ht next hnext
          cases ht
          exact hfirst next hnext
        obtain ⟨state', h, hout⟩ := (ih (ln + 1) ⟨some o.tMs, state.out ++ [o]⟩).mpr
          ⟨obs, hall, hordered, hnext, rfl⟩
        refine ⟨state', ⟨_, ⟨o, ho, fun t ht => hhead t ht o rfl, rfl⟩, h⟩, ?_⟩
        rw [hout, List.append_assoc, List.singleton_append]

/-! ## 2. Lines and pieces -/

/-- Bytes that are a text with these lines. -/
def TextLines (bytes : List UInt8) (ls : List (List Char)) : Prop :=
  ∃ text, fromUtf8 bytes = .ok text ∧ lines text.toList = ls

theorem TextLines.unique {bytes : List UInt8} {ls ls' : List (List Char)}
    (h : TextLines bytes ls) (h' : TextLines bytes ls') : ls = ls' := by
  obtain ⟨text, htext, rfl⟩ := h
  obtain ⟨text', htext', rfl⟩ := h'
  rw [htext] at htext'
  cases htext'
  rfl

theorem textLines_nil {ls : List (List Char)} : TextLines [] ls ↔ ls = [] := by
  have hempty : fromUtf8 [] = .ok "" := fromUtf8_eq_ok.mpr rfl
  constructor
  · intro h
    exact h.unique ⟨"", hempty, lines_nil⟩
  · rintro rfl
    exact ⟨"", hempty, lines_nil⟩

/-- A terminated line before more bytes. -/
theorem textLines_ended {body rest : List UInt8} (h : 0x0A ∉ body) {ls : List (List Char)} :
    TextLines (body ++ 0x0A :: rest) ls ↔
      ∃ first, fromUtf8 body = .ok first ∧
        ∃ more, TextLines rest more ∧ ls = stripCr first.toList :: more := by
  have hfeed : Char.ofNat (0x0A : UInt8).toNat = '\n' := rfl
  have hnotMem {first : String} (hfirst : fromUtf8 body = .ok first) : '\n' ∉ first.toList :=
    notMem_of_fromUtf8 (c := '\n') (by decide) (by decide) hfirst h
  unfold TextLines
  constructor
  · rintro ⟨text, htext, rfl⟩
    obtain ⟨first, second, hfirst, hsecond, heq⟩ := (fromUtf8_cut (by decide)).mp htext
    rw [heq, hfeed, lines_append (hnotMem hfirst)]
    exact ⟨first, hfirst, _, ⟨second, hsecond, rfl⟩, rfl⟩
  · rintro ⟨first, hfirst, _, ⟨second, hsecond, rfl⟩, rfl⟩
    refine ⟨String.ofList (first.toList ++ '\n' :: second.toList), ?_, ?_⟩
    · refine (fromUtf8_cut (by decide)).mpr ⟨first, second, hfirst, hsecond, ?_⟩
      rw [String.toList_ofList, hfeed]
    · rw [String.toList_ofList, lines_append (hnotMem hfirst)]

/-- What no line feed ends is one line, and the last: there is nothing behind it to be read. -/
theorem textLines_unended {body : List UInt8} (h : 0x0A ∉ body) (hne : body ≠ [])
    {ls : List (List Char)} (hls : TextLines body ls) : ∃ line, ls = [line] := by
  obtain ⟨text, htext, rfl⟩ := hls
  have hnotMem : '\n' ∉ text.toList :=
    notMem_of_fromUtf8 (c := '\n') (by decide) (by decide) htext h
  exact ⟨text.toList, lines_of_notMem hnotMem fun hempty => hne (eq_nil_of_fromUtf8 htext hempty)⟩

/-- **The lines of a stream are those of its pieces.** A carriage return in front of the line feed
belongs to the end of the line on both sides. -/
theorem textLines_firstPiece {s piece rest : List UInt8} (h : FirstPiece 0x0A s piece rest)
    (hne : s ≠ []) {ls : List (List Char)} : TextLines s ls ↔
      ∃ line more, TextLines piece [line] ∧ TextLines rest more ∧ ls = line :: more := by
  cases h with
  | ended rest h =>
    have hpiece (line : List Char) := @textLines_ended _ [] h [line]
    simp only [textLines_nil] at hpiece
    rw [textLines_ended h]
    constructor
    · rintro ⟨first, hfirst, more, hmore, rfl⟩
      exact ⟨_, more, (hpiece _).mpr ⟨first, hfirst, [], rfl, rfl⟩, hmore, rfl⟩
    · rintro ⟨line, more, hline, hmore, rfl⟩
      obtain ⟨first, hfirst, _, rfl, heq⟩ := (hpiece line).mp hline
      cases heq
      exact ⟨first, hfirst, more, hmore, rfl⟩
  | unended h =>
    constructor
    · intro hls
      obtain ⟨line, rfl⟩ := textLines_unended h hne hls
      exact ⟨line, [], hls, textLines_nil.mpr rfl, rfl⟩
    · rintro ⟨line, more, hline, hmore, rfl⟩
      rwa [textLines_nil.mp hmore]

theorem textLines_flatten {pieces : List (List UInt8)} (h : Pieces 0x0A pieces) :
    ∀ {ls : List (List Char)}, TextLines pieces.flatten ls ↔
      List.Forall₂ (fun piece line => TextLines piece [line]) pieces ls := by
  induction pieces with
  | nil =>
    intro ls
    rw [List.flatten_nil, textLines_nil, List.forall₂_nil_left_iff]
  | cons piece pieces ih =>
    intro ls
    have hne : (piece :: pieces).flatten ≠ [] := by
      simp [h.ne_nil piece List.mem_cons_self]
    rw [textLines_firstPiece h.firstPiece hne, List.forall₂_cons_left_iff]
    simp only [ih h.tail]

/-! ## 3. Recordings -/

variable (profile layout) in
/-- The header that a recording begins with: the profile is of this format, and the first line is
read as a header that has what the profile names. -/
def HeaderGives (piece : List UInt8) : Prop :=
  profile.format = formatId ∧ 0 ∉ piece ∧
    ∃ header, TextLines piece [header] ∧ readHeader profile header = .ok layout

variable (sha256 profile layout) in
/-- A piece behind the header gives an observation. -/
def PieceGives (piece : List UInt8) (o : Observation) : Prop :=
  0 ∉ piece ∧ ∃ line, TextLines piece [line] ∧ RowGives sha256 profile layout line o

theorem HeaderGives.unique {layout' : Layout} {piece : List UInt8}
    (h : HeaderGives profile layout piece) (h' : HeaderGives profile layout' piece) :
    layout = layout' := by
  obtain ⟨-, -, header, hline, hheader⟩ := h
  obtain ⟨-, -, header', hline', hheader'⟩ := h'
  obtain rfl := List.singleton_inj.mp (hline.unique hline')
  rw [hheader] at hheader'
  exact Except.ok.inj hheader'

/-- What a reading that succeeds has passed. -/
theorem read_eq_ok {bytes : List UInt8} {obs : List Observation} :
    read sha256 profile bytes = .ok obs ↔
      profile.format = formatId ∧ bytes.length ≤ maxBytes ∧ 0 ∉ bytes ∧
        ∃ header rows layout, TextLines bytes (header :: rows) ∧
          readHeader profile header = .ok layout ∧
          List.Forall₂ (RowGives sha256 profile layout) rows obs ∧ Ordered obs ∧ obs ≠ [] := by
  unfold read malformed
  split
  · next hformat => exact iff_of_false (fun h => by cases h) (fun h => hformat h.1)
  · next hformat =>
    split
    · next hbytes =>
      refine iff_of_false (fun h => by cases h) ?_
      rintro ⟨-, hlength, hzero, -⟩
      rcases hbytes with hlong | hmem
      · omega
      · exact hzero hmem
    · next hbytes =>
      rcases not_or.mp hbytes with ⟨hlength, hzero⟩
      rw [bind_eq_ok]
      simp only [mapError_eq_ok]
      constructor
      · rintro ⟨text, htext, h⟩
        refine ⟨not_not.mp hformat, Nat.le_of_not_lt hlength, hzero, ?_⟩
        split at h
        · cases h
        · next header rows hlines =>
          obtain ⟨layout, hlayout, h⟩ := bind_eq_ok.mp h
          obtain ⟨state, hstate, h⟩ := bind_eq_ok.mp h
          split at h
          · cases h
          · next hne =>
            cases h
            obtain ⟨obs, hall, hordered, -, hout⟩ := (readRows_eq_ok rows 1 {}).mp
              ⟨state, hstate, rfl⟩
            rw [List.nil_append] at hout
            rw [hout] at hne ⊢
            exact ⟨header, rows, layout, ⟨text, htext, hlines⟩, hlayout, hall, hordered,
              fun hnil => hne (List.isEmpty_iff.mpr hnil)⟩
      · rintro ⟨-, -, -, header, rows, layout, ⟨text, htext, hlines⟩, hlayout, hall, hordered, hne⟩
        obtain ⟨state, hstate, hout⟩ := (readRows_eq_ok rows 1 {}).mpr
          ⟨obs, hall, hordered, by simp, rfl⟩
        refine ⟨text, htext, ?_⟩
        rw [hlines]
        refine bind_eq_ok.mpr ⟨layout, hlayout, bind_eq_ok.mpr ⟨state, hstate, ?_⟩⟩
        rw [hout, List.nil_append, if_neg fun hempty => hne (List.isEmpty_iff.mp hempty)]
        rfl

/-- **A recording by its pieces**: the header is read, every piece behind it gives an observation,
and these are in the order of their times. -/
theorem read_pieces {header : List UInt8} {rows : List (List UInt8)}
    (hp : Pieces 0x0A (header :: rows)) (hsize : (header ++ rows.flatten).length ≤ maxBytes)
    {obs : List Observation} :
    read sha256 profile (header ++ rows.flatten) = .ok obs ↔
      ∃ layout, HeaderGives profile layout header ∧
        List.Forall₂ (PieceGives sha256 profile layout) rows obs ∧ Ordered obs ∧ obs ≠ [] := by
  have hlines := @textLines_flatten _ hp
  have hzero : 0 ∉ header ++ rows.flatten ↔ 0 ∉ header ∧ ∀ row ∈ rows, 0 ∉ row := by
    simp [List.mem_append, List.mem_flatten]
  have hrows (layout : Layout) : List.Forall₂ (PieceGives sha256 profile layout) rows obs ↔
      (∀ row ∈ rows, 0 ∉ row) ∧ ∃ lines, List.Forall₂ (fun row line => TextLines row [line])
        rows lines ∧ List.Forall₂ (RowGives sha256 profile layout) lines obs := by
    rw [forall₂_comp]
    exact List.forall₂_and_left rows obs
  rw [List.flatten_cons] at hlines
  rw [read_eq_ok, hzero]
  constructor
  · rintro ⟨hformat, -, ⟨hhead, hall⟩, line, lines, layout, htext, hlayout, hgives, hordered, hne⟩
    obtain ⟨hline, hmore⟩ := List.forall₂_cons.mp (hlines.mp htext)
    exact ⟨layout, ⟨hformat, hhead, line, hline, hlayout⟩,
      (hrows layout).mpr ⟨hall, lines, hmore, hgives⟩, hordered, hne⟩
  · rintro ⟨layout, ⟨hformat, hhead, line, hline, hlayout⟩, hgives, hordered, hne⟩
    obtain ⟨hall, lines, hmore, hgives⟩ := (hrows layout).mp hgives
    exact ⟨hformat, hsize, ⟨hhead, hall⟩, line, lines, layout, hlines.mpr (.cons hline hmore),
      hlayout, hgives, hordered, hne⟩

/-! ## 4. One row more -/

variable (sha256 profile) in
/-- The observations of the rows behind a header, of which there may be none.  `read` refuses a
header alone, so that case is told apart. -/
def Before (header : List UInt8) (rows : List (List UInt8)) (obs : List Observation) : Prop :=
  if rows = [] then obs = [] else read sha256 profile (header ++ rows.flatten) = .ok obs

theorem Before.unique {header : List UInt8} {rows : List (List UInt8)}
    {obs obs' : List Observation} (h : Before sha256 profile header rows obs)
    (h' : Before sha256 profile header rows obs') : obs = obs' := by
  unfold Before at h h'
  split at h
  · next hrows => rw [h, if_pos hrows |>.mp h']
  · next hrows =>
    rw [if_neg hrows, h] at h'
    exact Except.ok.inj h'

/-- One row behind a header. -/
theorem read_row {header row : List UInt8} (hp : Pieces 0x0A [header, row])
    (hsize : (header ++ row).length ≤ maxBytes) {obs : List Observation} :
    read sha256 profile (header ++ row) = .ok obs ↔
      ∃ layout, HeaderGives profile layout header ∧
        ∃ o, PieceGives sha256 profile layout row o ∧ obs = [o] := by
  have hflatten : [row].flatten = row := List.flatten_singleton
  have hread := @read_pieces sha256 profile header [row] hp
  rw [hflatten] at hread
  rw [hread hsize]
  constructor
  · rintro ⟨layout, hheader, hall, -, -⟩
    obtain ⟨o, _, ho, hnil, rfl⟩ := List.forall₂_cons_left_iff.mp hall
    cases hnil
    exact ⟨layout, hheader, o, ho, rfl⟩
  · rintro ⟨layout, hheader, o, ho, rfl⟩
    exact ⟨layout, hheader, .cons ho .nil, .singleton o, List.cons_ne_nil o []⟩

theorem before_iff {header : List UInt8} {rows : List (List UInt8)}
    (hp : Pieces 0x0A (header :: rows)) (hsize : (header ++ rows.flatten).length ≤ maxBytes)
    (hheader : HeaderGives profile layout header) {obs : List Observation} :
    Before sha256 profile header rows obs ↔
      List.Forall₂ (PieceGives sha256 profile layout) rows obs ∧ Ordered obs := by
  unfold Before
  split
  · next hrows =>
    subst hrows
    rw [List.forall₂_nil_left_iff]
    constructor
    · rintro rfl
      exact ⟨rfl, .nil⟩
    · exact fun h => h.1
  · next hrows =>
    rw [read_pieces hp hsize]
    constructor
    · rintro ⟨layout', hheader', hall, hordered, -⟩
      rw [hheader.unique hheader']
      exact ⟨hall, hordered⟩
    · rintro ⟨hall, hordered⟩
      refine ⟨layout, hheader, hall, hordered, ?_⟩
      rintro rfl
      exact hrows (List.forall₂_nil_right_iff.mp hall)

/-- **One row more** is read when it is by itself, and is not before the last of the others. -/
theorem read_append_row {header row : List UInt8} {rows : List (List UInt8)}
    (hp : Pieces 0x0A (header :: (rows ++ [row])))
    (hsize : (header ++ (rows ++ [row]).flatten).length ≤ maxBytes) {obs : List Observation} :
    read sha256 profile (header ++ (rows ++ [row]).flatten) = .ok obs ↔
      ∃ before o, obs = before ++ [o] ∧ Before sha256 profile header rows before ∧
        read sha256 profile (header ++ row) = .ok [o] ∧
        ∀ last ∈ before.getLast?, last.tMs ≤ o.tMs := by
  have hlength : (header ++ (rows ++ [row]).flatten).length =
      header.length + rows.flatten.length + row.length := by
    rw [List.flatten_append, List.flatten_singleton, List.length_append, List.length_append,
      Nat.add_assoc]
  have hpRows : Pieces 0x0A (header :: rows) :=
    hp.sublist (List.Sublist.cons_cons header (List.sublist_append_left rows [row]))
  have hpRow : Pieces 0x0A [header, row] :=
    hp.sublist (List.Sublist.cons_cons header (List.sublist_append_right rows [row]))
  have hsizeRows : (header ++ rows.flatten).length ≤ maxBytes := by
    rw [List.length_append]
    omega
  have hsizeRow : (header ++ row).length ≤ maxBytes := by
    rw [List.length_append]
    omega
  rw [read_pieces hp hsize]
  constructor
  · rintro ⟨layout, hheader, hall, hordered, hne⟩
    obtain ⟨before, o, rfl⟩ : ∃ before o, obs = before ++ [o] := by
      obtain ⟨before, o, hobs⟩ := (List.eq_nil_or_concat obs).resolve_left hne
      exact ⟨before, o, hobs.trans (List.concat_eq_append)⟩
    obtain ⟨hbefore, -, hlast⟩ := List.isChain_append.mp hordered
    have hcount : rows.length = before.length := by
      have hlengths := hall.length_eq
      simpa using hlengths
    have hrows := List.forall₂_take rows.length hall
    have hrow := List.forall₂_drop rows.length hall
    rw [List.take_left, hcount, List.take_left] at hrows
    rw [List.drop_left, hcount, List.drop_left] at hrow
    refine ⟨before, o, rfl, (before_iff hpRows hsizeRows hheader).mpr ⟨hrows, hbefore⟩,
      (read_row hpRow hsizeRow).mpr ⟨layout, hheader, o, ?_, rfl⟩, fun last hmem => ?_⟩
    · cases hrow with
      | cons ho _ => exact ho
    · exact hlast last hmem o rfl
  · rintro ⟨before, o, rfl, hbefore, hrow, hlast⟩
    obtain ⟨layout, hheader, o', ho, heq⟩ := (read_row hpRow hsizeRow).mp hrow
    cases heq
    obtain ⟨hall, hordered⟩ := (before_iff hpRows hsizeRows hheader).mp hbefore
    refine ⟨layout, hheader, List.rel_append hall (.cons ho .nil), ?_, by simp⟩
    refine List.isChain_append.mpr ⟨hordered, .singleton o, fun last hmem next hnext => ?_⟩
    cases hnext
    exact hlast last hmem

/-- The first rows of a recording that is read, with the first of its observations.  That is what
lets a stream be compared with it row by row. -/
theorem before_take {header : List UInt8} {rows : List (List UInt8)}
    (hp : Pieces 0x0A (header :: rows)) (hsize : (header ++ rows.flatten).length ≤ maxBytes)
    {obs : List Observation} (h : read sha256 profile (header ++ rows.flatten) = .ok obs)
    (k : ℕ) : Before sha256 profile header (rows.take k) (obs.take k) := by
  obtain ⟨layout, hheader, hall, hordered, -⟩ := (read_pieces hp hsize).mp h
  have hsizeTake : (header ++ (rows.take k).flatten).length ≤ maxBytes := by
    rw [← List.take_append_drop k rows, List.flatten_append, List.length_append,
      List.length_append] at hsize
    rw [List.length_append]
    omega
  refine (before_iff (hp.sublist ((List.take_sublist k rows).cons_cons header)) hsizeTake
    hheader).mpr ⟨List.forall₂_take k hall, hordered.take k⟩

end Musubi.Reference.EdgeTx
