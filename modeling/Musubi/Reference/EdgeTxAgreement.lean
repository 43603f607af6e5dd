/-
# A handset log read at once or line by line

However the input is buffered, `stream_line` returns the next piece of it.  A row that is decoded
by itself behind the header, and is not before the last one, is one row more of the recording that
`read` would return for the lines so far; so the stream ends as the reading of all lines does, or
stops at the first row with which that reading fails.

The stream decodes a row by reading a two-line recording, the header and the row, and checks the
order of times itself.  The invariant (`Reached`) is that what has been emitted is what `read`
returns on the pieces so far; `read_pieces` of `EdgeTxBatch` says when one piece more keeps it
that way, and its two conditions are the two checks of the stream.

A buffered input may hold any part of the bytes and may be interrupted at any time; `Input.Gives`
says what bytes it will have given in the end, and nothing about its buffers.  So the lines are
found in the same places whatever the buffers are.

Errors are compared as well.  The stream knows the number of its row and `read` does not, so the
numbers are part of the statement, and a profile of another format is refused by the stream before
it reads, at line one.
-/
import Mathlib.Order.Bounds.Defs
import Musubi.Reference.EdgeTxBatch
import Musubi.Reference.EdgeTxStream

namespace Musubi.Reference.EdgeTx

open Lib Musubi.Core

/-! ## 1. Lines of a buffered input -/

/-- The input holds the bytes, in buffers of any sizes, and interrupted at any places.  It has no
failures of its own and ends where the bytes do. -/
inductive Input.Gives : Input → List UInt8 → Prop
  | nil : Gives [] []
  | interrupted {input : Input} {bytes : List UInt8} (h : Gives input bytes) :
    Gives (.interrupted :: input) bytes
  | chunk {chunk : List UInt8} {input : Input} {bytes : List UInt8} (hne : chunk ≠ [])
    (h : Gives input bytes) : Gives (.chunk chunk :: input) (chunk ++ bytes)

/-- The bytes of a buffer that are not consumed are still there. -/
theorem Input.Gives.consume {input : Input} {bytes : List UInt8} (h : input.Gives bytes) (n : ℕ)
    (chunk : List UInt8) : (Input.consume n chunk input).Gives (chunk.drop n ++ bytes) := by
  unfold Input.consume
  split
  · next hlt => exact .chunk (List.ne_nil_of_length_pos (by rw [List.length_drop]; omega)) h
  · next hle =>
    rw [List.drop_eq_nil_of_le (Nat.le_of_not_lt hle), List.nil_append]
    exact h

/-- A line that ends within the buffer. -/
theorem lineEnd_ended {bytes body : List UInt8} (rest : List UInt8) (h : 0x0A ∉ body)
    (hlength : bytes.length + (body.length + 1) ≤ handsetStreamLineBytes) :
    lineEnd bytes (body ++ 0x0A :: rest) = body.length + 1 := by
  unfold lineEnd
  dsimp only
  generalize havailable : min (body ++ 0x0A :: rest).length
    (handsetStreamLineBytes + 1 - bytes.length) = available
  obtain ⟨more, rfl⟩ : ∃ more, available = body.length + (more + 1) := by
    rw [List.length_append, List.length_cons] at havailable
    exact ⟨available - body.length - 1, by omega⟩
  rw [List.take_length_add_append, List.take_succ_cons, idxOf?_ended h]

/-- A line that goes on behind the buffer takes all of it: the reader is asked for more. -/
theorem lineEnd_unended {bytes chunk : List UInt8} (h : 0x0A ∉ chunk)
    (hlength : bytes.length + chunk.length ≤ handsetStreamLineBytes) :
    lineEnd bytes chunk = chunk.length := by
  unfold lineEnd
  dsimp only
  rw [Nat.min_eq_left (by omega), List.take_length, List.idxOf?_eq_none_iff.mpr h]

/-- One buffer of a line within its bound: its bytes are taken and counted, and the loop goes on
with what the buffer has left. -/
theorem streamLine_chunk {line : ℕ} {taken chunk : List UInt8} {counts : HandsetStreamCounts}
    (input : Input) (hne : chunk ≠ []) {n : ℕ} (hn : lineEnd taken chunk = n)
    (hlength : (taken ++ chunk.take n).length ≤ handsetStreamLineBytes)
    (hcount : counts.bytesRead + n < 2 ^ 64) :
    streamLine line taken counts (.chunk chunk :: input) =
      if chunk[n - 1]? = some 0x0A then
        .ok (taken ++ chunk.take n, { counts with bytesRead := counts.bytesRead + n },
          Input.consume n chunk input)
      else streamLine line (taken ++ chunk.take n)
        { counts with bytesRead := counts.bytesRead + n } (Input.consume n chunk input) := by
  subst hn
  rw [streamLine, dif_neg hne]
  dsimp only
  rw [checkedU64_eq hcount]
  dsimp only
  rw [dif_neg (Nat.not_lt.mpr hlength)]

/-- **`stream_line` returns the next piece** of the input, if the piece is within its bound.  By
induction on the input; `taken` is the part of the piece that earlier buffers had. -/
theorem streamLine_eq_ok (line : ℕ) {input : Input} {bytes : List UInt8} (h : input.Gives bytes) :
    ∀ (taken : List UInt8) (counts : HandsetStreamCounts) {piece rest : List UInt8},
      FirstPiece 0x0A bytes piece rest →
      (taken ++ piece).length ≤ handsetStreamLineBytes →
      counts.bytesRead + piece.length < 2 ^ 64 →
      ∃ input', streamLine line taken counts input = .ok (taken ++ piece,
          { counts with bytesRead := counts.bytesRead + piece.length }, input') ∧
        input'.Gives rest := by
  induction h with
  | nil =>
    intro taken counts piece rest hfirst _ _
    obtain ⟨rfl, rfl⟩ := hfirst.unique (.unended (by simp))
    rw [streamLine, List.append_nil]
    exact ⟨[], rfl, .nil⟩
  | interrupted h ih =>
    intro taken counts piece rest hfirst hlength hcount
    rw [streamLine]
    exact ih taken counts hfirst hlength hcount
  | @chunk chunk input bytes hne h ih =>
    intro taken counts piece rest hfirst hlength hcount
    rw [List.length_append] at hlength
    by_cases hfeed : 0x0A ∈ chunk
    · obtain ⟨body, after, rfl, hbody⟩ := List.eq_append_cons_of_mem hfeed
      rw [List.append_assoc, List.cons_append] at hfirst
      obtain ⟨rfl, rfl⟩ := hfirst.unique (.ended _ hbody)
      rw [List.length_append, List.length_singleton] at hlength hcount
      have htake : (body ++ 0x0A :: after).take (body.length + 1) = body ++ [0x0A] := by
        rw [List.take_length_add_append, List.take_succ_cons, List.take_zero]
      rw [streamLine_chunk input hne (lineEnd_ended after hbody hlength) (by
        rw [htake, List.length_append, List.length_append, List.length_singleton]
        exact hlength) hcount, htake, Nat.add_sub_cancel, if_pos (by simp)]
      refine ⟨Input.consume (body.length + 1) (body ++ 0x0A :: after) input, ?_, ?_⟩
      · rw [List.length_append, List.length_singleton]
      · have hgives := h.consume (body.length + 1) (body ++ 0x0A :: after)
        rwa [List.drop_length_add_append, List.drop_succ_cons, List.drop_zero] at hgives
    · obtain ⟨piece', rest', hfirst'⟩ := exists_firstPiece 0x0A bytes
      obtain ⟨rfl, rfl⟩ := hfirst.unique (hfirst'.append_left hfeed)
      rw [List.length_append] at hlength hcount
      have hend : lineEnd taken chunk = chunk.length := lineEnd_unended hfeed (by omega)
      have hlast : chunk[chunk.length - 1]? ≠ some 0x0A := fun hsome =>
        hfeed (List.mem_of_getElem? hsome)
      rw [streamLine_chunk input hne hend (by
        rw [List.take_length, List.length_append]
        omega) (by omega), if_neg hlast, List.take_length, Input.consume, if_neg (Nat.lt_irrefl _)]
      obtain ⟨input', hinput, hgives⟩ := ih (taken ++ chunk)
        { counts with bytesRead := counts.bytesRead + chunk.length } hfirst' (by
          rw [List.length_append, List.length_append]
          omega) (by dsimp only; omega)
      refine ⟨input', ?_, hgives⟩
      rw [hinput, List.length_append, List.append_assoc, Nat.add_assoc]

/-! ## 2. One row -/

variable {sha256 : List UInt8 → Digest} {profile : FamilyProfile}
  {emit : List Observation → Observation → Except String Unit}

/-- The stream has emitted the rows behind a header: the observations are those of `read` on these
rows, and the number of the next line, the last time and the counts are what these rows leave. -/
structure Reached (sha256 : List UInt8 → Digest) (profile : FamilyProfile) (header : List UInt8)
    (rows : List (List UInt8)) (s : StreamState) : Prop where
  before : Before sha256 profile header rows s.sent
  line : s.line = rows.length + 2
  previous : s.previous = s.sent.getLast?.map (·.tMs)
  counts : s.counts = ⟨header.length + rows.flatten.length, rows.length, rows.length⟩

/-- A row that is in the input has been read, and nothing more of it has been done. -/
def StreamState.taken (s : StreamState) (row : List UInt8) : StreamState :=
  { s with counts := { s.counts with bytesRead := s.counts.bytesRead + row.length } }

/-- A row is too early when it is before the last one. -/
theorem any_lt_iff (sent : List Observation) (o : Observation) :
    (sent.getLast?.map (·.tMs)).any (o.tMs < ·) = true ↔
      ¬ ∀ last ∈ sent.getLast?, last.tMs ≤ o.tMs := by
  cases sent.getLast? with
  | none => simp
  | some last => simp [Int64.not_le]

/-- A record that the caller takes. -/
theorem emitRow_eq_ok (hemit : ∀ sent o, emit sent o = .ok ()) {s : StreamState}
    (hcount : s.counts.emittedRecords + 1 < 2 ^ 64) (hline : s.line + 1 < 2 ^ 64)
    (o : Observation) : emitRow emit o s = .ok {
      line := s.line + 1
      previous := some o.tMs
      counts := { s.counts with emittedRecords := s.counts.emittedRecords + 1 }
      sent := s.sent ++ [o] } := by
  unfold emitRow
  rw [checkedU64_eq hcount]
  dsimp only
  rw [hemit]
  dsimp only
  rw [checkedU64_eq hline]

/-- **One row more**: the stream goes on when the reading of the lines so far does, and stops with
what it had emitted when that reading fails. -/
theorem streamRow_spec (hemit : ∀ sent o, emit sent o = .ok ()) {header row : List UInt8}
    {rows : List (List UInt8)} (hp : Pieces 0x0A (header :: (rows ++ [row])))
    (hsize : (header ++ (rows ++ [row]).flatten).length ≤ maxBytes) {s : StreamState}
    (hs : Reached sha256 profile header rows s) :
    (∃ next, streamRow sha256 profile emit header row (s.taken row) = .ok next ∧
        Reached sha256 profile header (rows ++ [row]) next) ∨
      ∃ e error, read sha256 profile (header ++ (rows ++ [row]).flatten) = .error e ∧
        streamRow sha256 profile emit header row (s.taken row) = .error ⟨s.sent, error⟩ ∧
        error.lineNumber = rows.length + 2 := by
  have hlength : (header ++ (rows ++ [row]).flatten).length =
      header.length + rows.flatten.length + row.length := by
    rw [List.flatten_append, List.flatten_singleton, List.length_append, List.length_append,
      Nat.add_assoc]
  have hcount := (hp.sublist ((List.sublist_append_left rows [row]).trans
    (List.sublist_cons_self header _))).length_le
  have hmax : maxBytes + 4 < 2 ^ 64 := by decide
  have happend := @read_append_row sha256 profile header row rows hp hsize
  have hrow := @read_row sha256 profile header row
    (hp.sublist ((List.sublist_append_right rows [row]).cons_cons header))
    (by rw [List.length_append]; omega)
  obtain ⟨line, previous, counts, sent⟩ := s
  obtain ⟨hbefore, hline, hprevious, hcounts⟩ := hs
  dsimp only at hbefore hline hprevious hcounts
  subst hline hprevious hcounts
  -- the reading of all lines fails where the row itself does or is too early
  have hfails (h : ¬ ∃ o, read sha256 profile (header ++ row) = .ok [o] ∧
      ∀ last ∈ sent.getLast?, last.tMs ≤ o.tMs) :
      ∃ e, read sha256 profile (header ++ (rows ++ [row]).flatten) = .error e := by
    cases hread : read sha256 profile (header ++ (rows ++ [row]).flatten) with
    | error e => exact ⟨e, rfl⟩
    | ok obs =>
      obtain ⟨before, o, rfl, hbefore', ho, hlast⟩ := happend.mp hread
      rw [hbefore.unique hbefore'] at h
      exact absurd ⟨o, ho, hlast⟩ h
  unfold streamRow StreamState.taken decodeRow
  dsimp only
  rw [checkedU64_eq (by omega)]
  dsimp only
  cases hread : read sha256 profile (header ++ row) with
  | error e =>
    obtain ⟨e', hall⟩ := hfails (by
      rintro ⟨o, ho, -⟩
      rw [hread] at ho
      cases ho)
    exact Or.inr ⟨e', _, hall, rfl, rfl⟩
  | ok obs =>
    obtain ⟨layout, -, o, -, rfl⟩ := hrow.mp hread
    dsimp only
    split
    · next hearly =>
      obtain ⟨e', hall⟩ := hfails (by
        rintro ⟨o', ho', hlast⟩
        rw [hread] at ho'
        cases ho'
        exact (any_lt_iff sent o).mp hearly hlast)
      exact Or.inr ⟨e', _, hall, rfl, rfl⟩
    · next hearly =>
      have hlast := not_not.mp (mt (any_lt_iff sent o).mpr hearly)
      left
      refine ⟨_, emitRow_eq_ok hemit (by dsimp only; omega) (by dsimp only; omega) o, ?_, ?_, ?_,
        ?_⟩
      · unfold Before
        rw [if_neg (by simp)]
        exact happend.mpr ⟨sent, o, rfl, hbefore, hread, hlast⟩
      · simp
      · simp
      · simp [Nat.add_assoc]

/-! ## 3. All rows -/

/-- How the stream ends on the rows behind a header: with the observations of them all, or at the
first row with which their reading fails. -/
inductive StreamOutcome (sha256 : List UInt8 → Digest) (profile : FamilyProfile)
    (header : List UInt8) (rows : List (List UInt8)) :
    Except StreamStopped (List Observation × HandsetStreamCounts) → Prop
  | read {obs : List Observation}
    (h : read sha256 profile (header ++ rows.flatten) = .ok obs) :
    StreamOutcome sha256 profile header rows
      (.ok (obs, ⟨header.length + rows.flatten.length, rows.length, rows.length⟩))
  | stopped {k : ℕ} {sent : List Observation} {error : HandsetStreamError} {e : ReadError}
    (hk : k < rows.length) (hbefore : Before sha256 profile header (rows.take k) sent)
    (hfails : EdgeTx.read sha256 profile (header ++ (rows.take (k + 1)).flatten) = .error e)
    (hline : error.lineNumber = k + 2) :
    StreamOutcome sha256 profile header rows (.error ⟨sent, error⟩)

/-- `read_stream` after the next line. -/
theorem streamRows_eq {header row : List UInt8} {s : StreamState} {counts : HandsetStreamCounts}
    {input rest : Input} (h : streamLine s.line [] s.counts input = .ok (row, counts, rest)) :
    streamRows sha256 profile emit header s input =
      if row = [] then
        if counts.recordsRead = 0 then
          .error ⟨s.sent, ⟨counts, 1, .decode (match EdgeTx.read sha256 profile header with
            | .error error => error
            | .ok _ => .malformed 0 "no handset records")⟩⟩
        else .ok (s.sent, counts)
      else
        match streamRow sha256 profile emit header row { s with counts } with
        | .error stopped => .error stopped
        | .ok s => streamRows sha256 profile emit header s rest := by
  rw [streamRows]
  split
  · next error herror =>
    rw [h] at herror
    cases herror
  · next row' counts' rest' hok =>
    rw [h] at hok
    cases hok
    rfl

/-- **The rest of the rows**, whichever have been emitted.  Induction on the rows that are left,
with the state of the stream free; at the first row that is refused the loop stops with its
number. -/
theorem streamRows_spec (hemit : ∀ sent o, emit sent o = .ok ()) {header : List UInt8}
    (more : List (List UInt8)) : ∀ {rows : List (List UInt8)} {s : StreamState} {input : Input},
      Pieces 0x0A (header :: (rows ++ more)) →
      (header ++ (rows ++ more).flatten).length ≤ maxBytes →
      (∀ row ∈ more, row.length ≤ handsetStreamLineBytes) → rows ++ more ≠ [] →
      Reached sha256 profile header rows s → input.Gives more.flatten →
      StreamOutcome sha256 profile header (rows ++ more)
        (streamRows sha256 profile emit header s input) := by
  have hmax : maxBytes < 2 ^ 64 := by decide
  induction more with
  | nil =>
    intro rows s input hp hsize _ hne hs hinput
    rw [List.append_nil] at hp hsize hne ⊢
    obtain ⟨rest, hline, -⟩ := streamLine_eq_ok s.line hinput [] s.counts (.unended (by simp))
      (by simp) (by
        rw [hs.counts]
        rw [List.length_append] at hsize
        simp only [List.flatten_nil, List.length_nil]
        omega)
    rw [streamRows_eq hline, hs.counts]
    have hrecords : rows.length ≠ 0 := fun h => hne (List.length_eq_zero_iff.mp h)
    have hbefore := hs.before
    unfold Before at hbefore
    rw [if_neg hne] at hbefore
    simpa [hrecords] using StreamOutcome.read hbefore
  | cons row more ih =>
    intro rows s input hp hsize hbound hne hs hinput
    have hpMore : Pieces 0x0A (row :: more) :=
      hp.sublist ((List.sublist_append_right rows (row :: more)).cons header)
    have hlength : (header ++ (rows ++ row :: more).flatten).length =
        header.length + rows.flatten.length + row.length + more.flatten.length := by
      simp [Nat.add_assoc]
    obtain ⟨rest, hline, hrest⟩ := streamLine_eq_ok s.line hinput [] s.counts hpMore.firstPiece
      (hbound row List.mem_cons_self) (by
        rw [hs.counts]
        dsimp only
        omega)
    rw [streamRows_eq hline, List.nil_append, if_neg (hpMore.ne_nil row List.mem_cons_self)]
    rw [List.append_cons] at hp hsize hne ⊢
    have hpRow : Pieces 0x0A (header :: (rows ++ [row])) :=
      hp.sublist ((List.sublist_append_left (rows ++ [row]) more).cons_cons header)
    have hsizeRow : (header ++ (rows ++ [row]).flatten).length ≤ maxBytes := by
      rw [List.flatten_append, ← List.append_assoc, List.length_append] at hsize
      omega
    rcases streamRow_spec hemit hpRow hsizeRow hs with
      ⟨next, hnext, hreached⟩ | ⟨e, error, hfails, hstop, hnumber⟩
    · have hstep : streamRow sha256 profile emit header row { s with
          counts := { s.counts with bytesRead := s.counts.bytesRead + row.length } } =
          .ok next := hnext
      rw [hstep]
      exact ih hp hsize (fun r hr => hbound r (List.mem_cons_of_mem _ hr)) hne hreached hrest
    · have hstep : streamRow sha256 profile emit header row { s with
          counts := { s.counts with bytesRead := s.counts.bytesRead + row.length } } =
          .error ⟨s.sent, error⟩ := hstop
      rw [hstep]
      refine .stopped (k := rows.length) (e := e) ?_ ?_ ?_ hnumber
      · simp
      · rw [List.append_assoc, List.take_left]
        exact hs.before
      · rw [show rows.length + 1 = (rows ++ [row]).length by simp, List.take_left]
        exact hfails

/-! ## 4. The whole recording -/

/-- The first lines of a recording, with their ends. -/
def firstLines (n : ℕ) (bytes : List UInt8) : List UInt8 :=
  ((splitInclusive 0x0A bytes).take n).flatten

variable (sha256 profile) in
/-- The numbers of lines, from two on, with which a recording is not read. -/
def failingLines (bytes : List UInt8) : Set ℕ :=
  {n | 2 ≤ n ∧ n ≤ (splitInclusive 0x0A bytes).length ∧
    ∃ e, read sha256 profile (firstLines n bytes) = .error e}

theorem firstLines_succ {header bytes : List UInt8} {rows : List (List UInt8)}
    (h : splitInclusive 0x0A bytes = header :: rows) (n : ℕ) :
    firstLines (n + 1) bytes = header ++ (rows.take n).flatten := by
  rw [firstLines, h, List.take_succ_cons, List.flatten_cons]

variable (sha256 profile) in
/-- What has been emitted before line `n`: the rows of the lines before it, of which there are
none before the second. -/
def SentBefore (n : ℕ) (bytes : List UInt8) (sent : List Observation) : Prop :=
  if n = 2 then sent = [] else read sha256 profile (firstLines (n - 1) bytes) = .ok sent

/-- A recording without rows is not read; a header alone has nothing to observe. -/
theorem not_read_header {header : List UInt8} {obs : List Observation}
    (hp : Pieces 0x0A [header]) (hsize : header.length ≤ maxBytes) :
    read sha256 profile header ≠ .ok obs := by
  intro h
  rw [← List.append_nil header, ← List.flatten_nil (α := UInt8)] at h
  obtain ⟨layout, -, hall, -, hne⟩ := (read_pieces hp (by simpa using hsize)).mp h
  exact hne (List.forall₂_nil_left_iff.mp hall)

/-- Lines of which the first ones are read do not fail before the last of these. -/
theorem not_fails_of_before {header : List UInt8} {rows : List (List UInt8)} {k j : ℕ}
    (hp : Pieces 0x0A (header :: rows)) (hsize : (header ++ rows.flatten).length ≤ maxBytes)
    {sent : List Observation} (h : Before sha256 profile header (rows.take k) sent)
    (hj : 0 < j) (hjk : j ≤ k) (hne : rows ≠ []) {e : ReadError} :
    read sha256 profile (header ++ (rows.take j).flatten) ≠ .error e := by
  have htake {i : ℕ} (hi : 0 < i) : rows.take i ≠ [] := by
    rw [ne_eq, List.take_eq_nil_iff, not_or]
    exact ⟨by omega, hne⟩
  have hsizeTake : (header ++ (rows.take k).flatten).length ≤ maxBytes := by
    rw [← List.take_append_drop k rows, List.flatten_append, List.length_append,
      List.length_append] at hsize
    rw [List.length_append]
    omega
  unfold Before at h
  rw [if_neg (htake (by omega))] at h
  have hbefore := before_take (hp.sublist ((List.take_sublist k rows).cons_cons header))
    hsizeTake h j
  rw [List.take_take, Nat.min_eq_left hjk] at hbefore
  unfold Before at hbefore
  rw [if_neg (htake hj)] at hbefore
  rw [hbefore]
  exact fun herror => by cases herror

/-- The lines of a recording that has any. -/
theorem pieces_of_lines {header bytes : List UInt8} {rows : List (List UInt8)}
    (hlines : splitInclusive 0x0A bytes = header :: rows) :
    Pieces 0x0A (header :: rows) ∧ header ++ rows.flatten = bytes := by
  have hbytes := flatten_splitInclusive 0x0A bytes
  rw [hlines, List.flatten_cons] at hbytes
  exact ⟨hlines ▸ pieces_splitInclusive 0x0A bytes, hbytes⟩

/-- The first line with which a recording is not read, where its first rows are. -/
theorem isLeast_failingLines {header bytes : List UInt8} {rows : List (List UInt8)}
    (hlines : splitInclusive 0x0A bytes = header :: rows) (hsize : bytes.length ≤ maxBytes)
    {k : ℕ} (hk : k < rows.length) {sent : List Observation} {e : ReadError}
    (hbefore : Before sha256 profile header (rows.take k) sent)
    (hfails : read sha256 profile (header ++ (rows.take (k + 1)).flatten) = .error e) :
    IsLeast (failingLines sha256 profile bytes) (k + 2) ∧
      SentBefore sha256 profile (k + 2) bytes sent := by
  obtain ⟨hp, hbytes⟩ := pieces_of_lines hlines
  have hne : rows ≠ [] := List.ne_nil_of_length_pos (by omega)
  refine ⟨⟨⟨by omega, ?_, e, ?_⟩, ?_⟩, ?_⟩
  · rw [hlines, List.length_cons]
    omega
  · rw [firstLines_succ hlines]
    exact hfails
  · rintro m ⟨hm, -, e', herror⟩
    obtain ⟨j, rfl⟩ : ∃ j, m = j + 2 := ⟨m - 2, by omega⟩
    rw [firstLines_succ hlines] at herror
    by_contra hlt
    exact not_fails_of_before hp (hbytes ▸ hsize) hbefore (Nat.succ_pos j) (by omega) hne herror
  · unfold SentBefore
    unfold Before at hbefore
    rw [Nat.add_sub_cancel_right (n := k + 1) (m := 1), firstLines_succ hlines]
    cases k with
    | zero =>
      rw [if_pos rfl]
      rwa [List.take_zero, if_pos rfl] at hbefore
    | succ k =>
      rw [if_neg (by omega)]
      rwa [if_neg] at hbefore
      rw [List.take_eq_nil_iff, not_or]
      exact ⟨by omega, hne⟩

/-- A recording that is read has no such line: its first lines are a recording that is read too,
so a line that fails alone would have failed the whole. -/
theorem failingLines_of_read {header bytes : List UInt8} {rows : List (List UInt8)}
    (hlines : splitInclusive 0x0A bytes = header :: rows) (hsize : bytes.length ≤ maxBytes)
    {obs : List Observation} (h : read sha256 profile bytes = .ok obs) :
    failingLines sha256 profile bytes = ∅ := by
  obtain ⟨hp, rfl⟩ := pieces_of_lines hlines
  refine Set.eq_empty_iff_forall_notMem.mpr ?_
  rintro m ⟨hm, hle, e, herror⟩
  rw [hlines, List.length_cons] at hle
  obtain ⟨j, rfl⟩ : ∃ j, m = j + 2 := ⟨m - 2, by omega⟩
  rw [firstLines_succ hlines] at herror
  have hbefore : Before sha256 profile header (rows.take rows.length) obs := by
    unfold Before
    rw [List.take_length, if_neg, h]
    rintro rfl
    rw [List.length_nil] at hle
    omega
  exact not_fails_of_before hp hsize hbefore (Nat.succ_pos j) (by omega)
    (List.ne_nil_of_length_pos (by omega)) herror

variable (sha256 emit) in
/-- A stream of the reader's own format, after its header. -/
theorem readStream_eq (hformat : profile.format = formatId) {input : Input}
    {bytes header rest : List UInt8} (hinput : input.Gives bytes)
    (hfirst : FirstPiece 0x0A bytes header rest) (hsize : bytes.length ≤ maxBytes)
    (hbound : header.length ≤ handsetStreamLineBytes) :
    ∃ input', input'.Gives rest ∧ readStream sha256 profile emit input =
      streamRows sha256 profile emit header ⟨2, none, ⟨header.length, 0, 0⟩, []⟩ input' := by
  have hmax : maxBytes < 2 ^ 64 := by decide
  have hlength := congrArg List.length hfirst.append_eq
  rw [List.length_append] at hlength
  obtain ⟨input', hline, hgives⟩ := streamLine_eq_ok 1 hinput [] ⟨0, 0, 0⟩ hfirst hbound
    (by dsimp only; omega)
  refine ⟨input', hgives, ?_⟩
  unfold readStream
  rw [if_neg (not_not.mpr hformat), hline]
  simp

/-- A stream without rows fails, as the reading of the whole recording does. -/
theorem readStream_header (hformat : profile.format = formatId) {input : Input}
    {bytes : List UInt8} (hinput : input.Gives bytes) (hfirst : FirstPiece 0x0A bytes bytes [])
    (hsize : bytes.length ≤ maxBytes) (hbound : bytes.length ≤ handsetStreamLineBytes) :
    ∃ stopped, readStream sha256 profile emit input = .error stopped := by
  have hmax : maxBytes < 2 ^ 64 := by decide
  obtain ⟨input', hgives, hstream⟩ := readStream_eq sha256 emit hformat hinput
    hfirst hsize hbound
  obtain ⟨rest, hline, -⟩ := streamLine_eq_ok 2 hgives [] ⟨bytes.length, 0, 0⟩
    (.unended (by simp)) (by simp) (by simp only [List.length_nil]; omega)
  rw [hstream, streamRows_eq hline, List.append_nil, if_pos rfl, if_pos rfl]
  exact ⟨_, rfl⟩

/-- A stream with rows. -/
theorem readStream_spec (hemit : ∀ sent o, emit sent o = .ok ())
    (hformat : profile.format = formatId) {input : Input} {header bytes : List UInt8}
    {rows : List (List UInt8)} (hinput : input.Gives bytes)
    (hlines : splitInclusive 0x0A bytes = header :: rows) (hne : rows ≠ [])
    (hsize : bytes.length ≤ maxBytes)
    (hbound : ∀ line ∈ splitInclusive 0x0A bytes, line.length ≤ handsetStreamLineBytes) :
    StreamOutcome sha256 profile header rows (readStream sha256 profile emit input) := by
  obtain ⟨hp, rfl⟩ := pieces_of_lines hlines
  rw [hlines] at hbound
  obtain ⟨input', hgives, hstream⟩ := readStream_eq sha256 emit hformat hinput
    hp.firstPiece hsize (hbound header List.mem_cons_self)
  rw [hstream]
  have hbefore : Before sha256 profile header [] [] := by
    unfold Before
    rw [if_pos rfl]
  have hreached : Reached sha256 profile header [] ⟨2, none, ⟨header.length, 0, 0⟩, []⟩ :=
    ⟨hbefore, rfl, rfl, by simp⟩
  exact streamRows_spec hemit rows hp hsize
    (fun row hrow => hbound row (List.mem_cons_of_mem _ hrow)) (by simpa using hne) hreached hgives

theorem length_of_read {header : List UInt8} {rows : List (List UInt8)}
    (hp : Pieces 0x0A (header :: rows)) (hsize : (header ++ rows.flatten).length ≤ maxBytes)
    {obs : List Observation} (h : read sha256 profile (header ++ rows.flatten) = .ok obs) :
    obs.length = rows.length := by
  obtain ⟨layout, -, hall, -, -⟩ := (read_pieces hp hsize).mp h
  exact hall.length_eq.symm

variable (sha256 profile) in
/-- **A stream agrees with the reading at once**: it succeeds with the observations that the
reading returns, all of them counted; and where the first lines fail, it fails there, with the
rows before it emitted.  `failureLine` is the number that the failure with a line has. -/
structure Agrees (bytes : List UInt8) (failureLine : ℕ → ℕ)
    (result : Except StreamStopped (List Observation × HandsetStreamCounts)) : Prop where
  succeeds : ∀ obs, read sha256 profile bytes = .ok obs ↔ result = .ok (obs, {
    bytesRead := bytes.length
    recordsRead := obs.length
    emittedRecords := obs.length })
  fails : ∀ n, IsLeast (failingLines sha256 profile bytes) n →
    ∃ sent error, result = .error ⟨sent, error⟩ ∧ error.lineNumber = failureLine n ∧
      SentBefore sha256 profile n bytes sent

/-- Neither reading succeeds, and there is no second line to fail with. -/
theorem Agrees.of_short {bytes : List UInt8} {failureLine : ℕ → ℕ}
    {result : Except StreamStopped (List Observation × HandsetStreamCounts)}
    (hread : ∀ obs, read sha256 profile bytes ≠ .ok obs)
    (hlines : (splitInclusive 0x0A bytes).length < 2)
    (hstream : ∃ stopped, result = .error stopped) :
    Agrees sha256 profile bytes failureLine result := by
  obtain ⟨stopped, rfl⟩ := hstream
  refine ⟨fun obs => iff_of_false (hread obs) (fun h => by cases h), ?_⟩
  rintro n ⟨⟨hn, hle, -⟩, -⟩
  omega

/-- The rows of a recording, however they end. -/
theorem StreamOutcome.agrees {header bytes : List UInt8} {rows : List (List UInt8)}
    {result : Except StreamStopped (List Observation × HandsetStreamCounts)}
    (hlines : splitInclusive 0x0A bytes = header :: rows) (hsize : bytes.length ≤ maxBytes)
    (h : StreamOutcome sha256 profile header rows result) :
    Agrees sha256 profile bytes (fun n => n) result := by
  obtain ⟨hp, hbytes⟩ := pieces_of_lines hlines
  cases h with
  | stopped hk hbefore hfails hline =>
    obtain ⟨hleast, hsent⟩ := isLeast_failingLines hlines hsize hk hbefore hfails
    refine ⟨fun obs => iff_of_false (fun h => ?_) (fun h => by cases h), fun n hn => ?_⟩
    · rw [failingLines_of_read hlines hsize h] at hleast
      exact hleast.1
    · rw [hn.unique hleast]
      exact ⟨_, _, rfl, hline, hsent⟩
  | read hread =>
    have hlength := length_of_read hp (hbytes ▸ hsize) hread
    rw [hbytes] at hread
    rw [← List.length_append, hbytes]
    refine ⟨fun obs => ?_, fun n hn => ?_⟩
    · rw [hread]
      constructor
      · intro h
        cases h
        rw [hlength]
      · intro h
        rw [(Prod.mk.inj (Except.ok.inj h)).1]
    · rw [failingLines_of_read hlines hsize hread] at hn
      exact absurd hn.1 (Set.notMem_empty n)

/-- A profile of the reader's own format. -/
theorem readStream_agrees (hemit : ∀ sent o, emit sent o = .ok ())
    (hformat : profile.format = formatId) {bytes : List UInt8} (hsize : bytes.length ≤ maxBytes)
    (hbound : ∀ line ∈ splitInclusive 0x0A bytes, line.length ≤ handsetStreamLineBytes)
    {input : Input} (hinput : input.Gives bytes) :
    Agrees sha256 profile bytes (fun n => n) (readStream sha256 profile emit input) := by
  cases hlines : splitInclusive 0x0A bytes with
  | nil =>
    have hbytes := flatten_splitInclusive 0x0A bytes
    rw [hlines] at hbytes
    subst hbytes
    refine .of_short (fun obs h => ?_) (by simp [splitInclusive])
      (readStream_header hformat hinput (.unended (by simp)) hsize (by simp))
    obtain ⟨-, -, -, header, rows, layout, htext, -⟩ := read_eq_ok.mp h
    cases textLines_nil.mp htext
  | cons header rows =>
    by_cases hne : rows = []
    · subst hne
      obtain ⟨hp, hbytes⟩ := pieces_of_lines hlines
      rw [List.flatten_nil, List.append_nil] at hbytes
      subst hbytes
      have hfirst := hp.firstPiece
      rw [List.flatten_cons, List.flatten_nil, List.append_nil] at hfirst
      refine .of_short (fun obs => not_read_header hp hsize) (by simp [hlines])
        (readStream_header hformat hinput hfirst hsize (hbound header ?_))
      rw [hlines]
      exact List.mem_cons_self
    · exact (readStream_spec hemit hformat hinput hlines hne hsize hbound).agrees hlines hsize

/-- A profile of another format is refused before the input is looked at. -/
theorem readStream_refuses (hformat : profile.format ≠ formatId) (bytes : List UInt8)
    (input : Input) :
    Agrees sha256 profile bytes (fun _ => 1) (readStream sha256 profile emit input) := by
  have hread : ∀ bytes, ∃ e, read sha256 profile bytes = .error e := fun bytes =>
    ⟨_, if_pos hformat⟩
  have hstream : readStream sha256 profile emit input = .error ⟨[], ⟨⟨0, 0, 0⟩, 1,
      .decode (.profile "handset reader requires its own format")⟩⟩ := if_pos hformat
  rw [hstream]
  refine ⟨fun obs => iff_of_false (fun h => ?_) (fun h => by cases h), ?_⟩
  · obtain ⟨e, he⟩ := hread bytes
    rw [he] at h
    cases h
  · rintro n ⟨⟨hn, hle, -⟩, hleast⟩
    have htwo : n = 2 := Nat.le_antisymm
      (hleast ⟨Nat.le_refl 2, Nat.le_trans hn hle, hread _⟩) hn
    refine ⟨[], _, rfl, rfl, ?_⟩
    rw [SentBefore, if_pos htwo]

/-- **A handset log is read line by line as it is at once**, but for the number of the line that a
profile of another format fails with.  `hemit` says that the caller accepts what it is given,
since otherwise the stream stops where the caller does; `hsize` and `hbound` are the bounds that
the two readers have on the whole input and on a line, and each reader refuses what is beyond its
own.  The buffers of `input` are arbitrary. -/
theorem readStream_eq_read (sha256 : List UInt8 → Digest) (profile : FamilyProfile)
    (emit : List Observation → Observation → Except String Unit)
    (hemit : ∀ sent o, emit sent o = .ok ()) (bytes : List UInt8)
    (hsize : bytes.length ≤ maxBytes)
    (hbound : ∀ line ∈ splitInclusive 0x0A bytes, line.length ≤ handsetStreamLineBytes)
    (input : Input) (hinput : input.Gives bytes) :
    Agrees sha256 profile bytes (fun n => if profile.format = formatId then n else 1)
      (readStream sha256 profile emit input) := by
  by_cases hformat : profile.format = formatId
  · simp only [if_pos hformat]
    exact readStream_agrees hemit hformat hsize hbound hinput
  · simp only [if_neg hformat]
    exact readStream_refuses hformat bytes input

/-- A handset with one sensor. -/
def exampleProfile : FamilyProfile where
  profileId := "handset"
  version := "1"
  family := .fpv
  sourceRole := .handset
  format := "edgetx_csv"
  extensions := ["csv"]
  fields := ⟨"tmr10ms", [], ["RQly(%)"], [], [], []⟩
  fieldUnits := .empty
  channels := []
  expectations := []
  defaultClockBasis := .unknown
  declaredPlatformDomain := none
  declaredSender := none
  declaredClockRate := none
  origin := "handset.toml"

/-- A header, `tmr10ms,RQly(%)`, and two rows, `3000,100` and `3100,90`. -/
def exampleLog : List UInt8 :=
  [0x74, 0x6D, 0x72, 0x31, 0x30, 0x6D, 0x73, 0x2C, 0x52, 0x51, 0x6C, 0x79, 0x28, 0x25, 0x29, 0x0A,
    0x33, 0x30, 0x30, 0x30, 0x2C, 0x31, 0x30, 0x30, 0x0A,
    0x33, 0x31, 0x30, 0x30, 0x2C, 0x39, 0x30, 0x0A]

/-- The log in two buffers, cut within its second row, of which the second buffer comes late. -/
def exampleInput : Input :=
  [.chunk (exampleLog.take 28), .interrupted, .chunk (exampleLog.drop 28)]

theorem gives_exampleInput : exampleInput.Gives exampleLog :=
  .chunk (by decide) (.interrupted (List.append_nil (exampleLog.drop 28) ▸ .chunk (by decide) .nil))

theorem readStream_eq_read_exampleLog :
    Agrees (fun _ => .replicate 32 0) exampleProfile exampleLog
      (fun n => if exampleProfile.format = formatId then n else 1)
      (readStream (fun _ => .replicate 32 0) exampleProfile (fun _ _ => .ok ()) exampleInput) :=
  readStream_eq_read _ _ _ (fun _ _ => rfl) _ (by decide) (by decide) _ gives_exampleInput

/-- The stream fails at line 1, and the recording with its second line. -/
theorem readStream_other_format :
    ∃ profile bytes input, bytes.length ≤ maxBytes ∧
      (∀ line ∈ splitInclusive 0x0A bytes, line.length ≤ handsetStreamLineBytes) ∧
      Input.Gives input bytes ∧
      ¬ Agrees (fun _ => .replicate 32 0) profile bytes (fun n => n)
        (readStream (fun _ => .replicate 32 0) profile (fun _ _ => .ok ()) input) := by
  refine ⟨{ exampleProfile with format := "mavlink_tlog" }, exampleLog, exampleInput, by decide,
    by decide, gives_exampleInput, fun h => ?_⟩
  have hformat : ({ exampleProfile with format := "mavlink_tlog" } : FamilyProfile).format ≠
      formatId := by decide
  have hleast : IsLeast (failingLines (fun _ => .replicate 32 0)
      { exampleProfile with format := "mavlink_tlog" } exampleLog) 2 :=
    ⟨⟨Nat.le_refl 2, by decide, _, if_pos hformat⟩, fun n hn => hn.1⟩
  obtain ⟨sent, error, hstream, hline, -⟩ := h.fails 2 hleast
  rw [readStream, if_pos hformat] at hstream
  cases hstream
  cases hline

end Musubi.Reference.EdgeTx
