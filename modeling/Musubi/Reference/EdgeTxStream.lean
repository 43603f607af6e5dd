/-
# Handset logs, line by line

`reference-readers/src/edgetx.rs`: `read_stream` takes a recording of any size one line at a time.
A line is bounded, its end is looked for in what the input has buffered, and every row is decoded
by itself behind the header.  The caller's `emit` has an observation before the next line is read;
what it makes of one may depend on those it has had before.

The input is whatever implements the interface of a buffered reader: a call of `fill_buf` finds
some bytes, an interruption, an error, or the end, and only the bytes that are consumed are gone.
A stream that fails has emitted something by then, and this is part of its result
(`StreamStopped`).
-/
import Musubi.Lib.CheckedInt
import Musubi.Reference.EdgeTx

namespace Musubi.Reference.EdgeTx

open Lib Musubi.Core

/-! ## 1. A buffered input -/

/-- What a call of `fill_buf` finds. -/
inductive Fill
  | chunk (bytes : List UInt8)
  | interrupted
  | failed (error : String)
deriving DecidableEq

/-- The buffers that an input will have, one after the other, and nothing then. -/
abbrev Input := List Fill

def Fill.size : Fill → ℕ
  | .chunk bytes => bytes.length + 1
  | .interrupted => 1
  | .failed _ => 1

def Input.size (input : Input) : ℕ := (input.map Fill.size).sum

/-- The input after `n` bytes of its buffer are consumed. -/
def Input.consume (n : ℕ) (chunk : List UInt8) (input : Input) : Input :=
  if n < chunk.length then .chunk (chunk.drop n) :: input else input

@[simp] theorem Input.size_cons (fill : Fill) (input : Input) :
    Input.size (fill :: input) = fill.size + Input.size input := rfl

theorem Input.size_consume_add (n : ℕ) (chunk : List UInt8) (input : Input) :
    Input.size (Input.consume n chunk input) + (chunk.take n).length ≤
      Input.size (.chunk chunk :: input) := by
  unfold Input.consume
  rw [Input.size_cons, Fill.size, List.length_take]
  split
  · rw [Input.size_cons, Fill.size, List.length_drop]
    omega
  · omega

/-! ## 2. `stream_line` -/

structure HandsetStreamCounts where
  bytesRead : ℕ
  recordsRead : ℕ
  emittedRecords : ℕ
deriving DecidableEq, Repr

inductive HandsetStreamFailure
  | input (error : String)
  | decode (error : ReadError)
  | output (error : String)
  | limit (what : String)
deriving DecidableEq, Repr

/-- Lines are counted from one, which is the header. -/
structure HandsetStreamError where
  counts : HandsetStreamCounts
  lineNumber : ℕ
  reason : HandsetStreamFailure
deriving DecidableEq, Repr

/-- The bound of a line with its end. -/
def handsetStreamLineBytes : ℕ := 64 * 1024

/-- How much of a buffer belongs to the line of which `bytes` have been read: up to its end, or up
to the byte that is one too many. -/
def lineEnd (bytes chunk : List UInt8) : ℕ :=
  let available := min chunk.length (handsetStreamLineBytes + 1 - bytes.length)
  match (chunk.take available).idxOf? 0x0A with
  | some index => index + 1
  | none => available

/-- A line within its bound takes a byte of every buffer. -/
theorem lineEnd_pos {bytes chunk : List UInt8} (hchunk : chunk ≠ [])
    (h : (bytes ++ chunk.take (lineEnd bytes chunk)).length ≤ handsetStreamLineBytes) :
    0 < lineEnd bytes chunk := by
  have hpos := List.length_pos_of_ne_nil hchunk
  rw [List.length_append] at h
  unfold lineEnd
  dsimp only
  split
  · exact Nat.succ_pos _
  · omega

/-- The line of which `bytes` have been read, and the input behind it. -/
def streamLine (line : ℕ) (bytes : List UInt8) (counts : HandsetStreamCounts) :
    Input → Except HandsetStreamError (List UInt8 × HandsetStreamCounts × Input)
  | [] => .ok (bytes, counts, [])
  | .interrupted :: input => streamLine line bytes counts input
  | .failed error :: _ => .error ⟨counts, line, .input error⟩
  | .chunk chunk :: input =>
    if _hchunk : chunk = [] then .ok (bytes, counts, .chunk chunk :: input)
    else
      let n := lineEnd bytes chunk
      match checkedU64 (counts.bytesRead + n) with
      | none => .error ⟨counts, line, .limit "input byte counter overflow"⟩
      | some next =>
        let taken := bytes ++ chunk.take n
        let counts := { counts with bytesRead := next }
        if _hlong : handsetStreamLineBytes < taken.length then
          .error ⟨counts, line, .limit "handset line exceeds 64KiB"⟩
        else if chunk[n - 1]? = some 0x0A then .ok (taken, counts, Input.consume n chunk input)
        else streamLine line taken counts (Input.consume n chunk input)
termination_by input => Input.size input
decreasing_by
  · rw [Input.size_cons, Fill.size]
    omega
  · have hpos := lineEnd_pos _hchunk (Nat.le_of_not_lt _hlong)
    have hsize := Input.size_consume_add (lineEnd bytes chunk) chunk input
    have hlength := List.length_pos_of_ne_nil _hchunk
    rw [List.length_take] at hsize
    change Input.size (Input.consume (lineEnd bytes chunk) chunk input) < _
    omega

/-- What a line has is no longer in the input.  The input gets smaller with every line, and the
loop over the rows ends by it. -/
theorem size_of_streamLine {line : ℕ} {bytes row : List UInt8}
    {counts counts' : HandsetStreamCounts} {input rest : Input}
    (h : streamLine line bytes counts input = .ok (row, counts', rest)) :
    Input.size rest + row.length ≤ Input.size input + bytes.length := by
  fun_induction streamLine line bytes counts input with
  | case1 =>
    cases h
    exact Nat.le_refl _
  | case2 bytes counts input ih =>
    have hsize := ih h
    rw [Input.size_cons, Fill.size]
    omega
  | case4 =>
    cases h
    exact Nat.le_refl _
  | case7 bytes counts chunk input _ n next _ taken =>
    simp only [Except.ok.injEq, Prod.mk.injEq] at h
    have hsize := Input.size_consume_add n chunk input
    have htaken : taken.length = bytes.length + (chunk.take n).length := List.length_append
    rw [← h.1, ← h.2.2, htaken]
    omega
  | case8 bytes counts chunk input _ n next _ taken _ _ _ ih =>
    have hrest := ih h
    have hsize := Input.size_consume_add n chunk input
    have htaken : taken.length = bytes.length + (chunk.take n).length := List.length_append
    omega
  | case3 | case5 | case6 => cases h

/-! ## 3. `read_stream` -/

/-- The line to be read next, the time of the last row, and what has been emitted. -/
structure StreamState where
  line : ℕ
  previous : Option Int64
  counts : HandsetStreamCounts
  sent : List Observation

/-- A stream that failed, and what had been emitted by then. -/
structure StreamStopped where
  sent : List Observation
  error : HandsetStreamError

def StreamState.stop {α : Type} (s : StreamState) (reason : HandsetStreamFailure) :
    Except StreamStopped α := .error ⟨s.sent, ⟨s.counts, s.line, reason⟩⟩

variable (sha256 : List UInt8 → Digest) (profile : FamilyProfile)
  (emit : List Observation → Observation → Except String Unit)

/-- The only record of a row behind the header, at a time that is not before the last one. -/
def decodeRow (header row : List UInt8) (s : StreamState) : Except StreamStopped Observation :=
  match read sha256 profile (header ++ row) with
  | .error error => s.stop (.decode error)
  | .ok [] => s.stop (.limit "no record in decoded line")
  | .ok [record] =>
    if s.previous.any (record.tMs < ·) then
      s.stop (.decode (.malformed s.line "decreasing handset clock; split sessions explicitly"))
    else .ok record
  | .ok (_ :: _ :: _) => s.stop (.limit "multiple records in decoded line")

/-- A record is emitted, and counts when the caller has taken it. -/
def emitRow (record : Observation) (s : StreamState) : Except StreamStopped StreamState :=
  match checkedU64 (s.counts.emittedRecords + 1) with
  | none => s.stop (.limit "emission counter overflow")
  | some acknowledged =>
    match emit s.sent record with
    | .error error => s.stop (.output error)
    | .ok () =>
      let s := { s with
        previous := some record.tMs
        counts := { s.counts with emittedRecords := acknowledged }
        sent := s.sent ++ [record] }
      match checkedU64 (s.line + 1) with
      | none => s.stop (.limit "line counter overflow")
      | some line => .ok { s with line }

def streamRow (header row : List UInt8) (s : StreamState) : Except StreamStopped StreamState :=
  match checkedU64 (s.counts.recordsRead + 1) with
  | none => s.stop (.limit "record counter overflow")
  | some records => do
    let s := { s with counts := { s.counts with recordsRead := records } }
    let record ← decodeRow sha256 profile header row s
    emitRow emit record s

/-- The rows that are still in the input. -/
def streamRows (header : List UInt8) (s : StreamState) (input : Input) :
    Except StreamStopped (List Observation × HandsetStreamCounts) :=
  match _h : streamLine s.line [] s.counts input with
  | .error error => .error ⟨s.sent, error⟩
  | .ok (row, counts, rest) =>
    let s := { s with counts }
    if _hrow : row = [] then
      if counts.recordsRead = 0 then
        let error := match read sha256 profile header with
          | .error error => error
          | .ok _ => .malformed 0 "no handset records"
        .error ⟨s.sent, ⟨counts, 1, .decode error⟩⟩
      else .ok (s.sent, counts)
    else
      match streamRow sha256 profile emit header row s with
      | .error stopped => .error stopped
      | .ok s => streamRows header s rest
termination_by Input.size input
decreasing_by
  have hsize := size_of_streamLine _h
  have hlength := List.length_pos_of_ne_nil _hrow
  rw [List.length_nil] at hsize
  omega

def readStream (input : Input) : Except StreamStopped (List Observation × HandsetStreamCounts) :=
  if profile.format ≠ formatId then
    .error ⟨[], ⟨⟨0, 0, 0⟩, 1, .decode (.profile "handset reader requires its own format")⟩⟩
  else
    match streamLine 1 [] ⟨0, 0, 0⟩ input with
    | .error error => .error ⟨[], error⟩
    | .ok (header, counts, rest) =>
      streamRows sha256 profile emit header ⟨2, none, counts, []⟩ rest

end Musubi.Reference.EdgeTx
