/-
# The frames of decoded GPS records

What a stream holds is a function of the bytes that it has been pushed: the frames that line feeds
have ended, each with its event, and the retained part of the frame that has not ended.  So the
events and the counts are the same however the bytes were cut into chunks, but for the arrivals
and for how many bytes had come by each event.  No counter but that of the bytes can overflow,
since every event is paid for with a byte.
-/
import Musubi.Lib.Pieces
import Musubi.Reference.MavlogStream

namespace Musubi.Reference.Mavlog

open Lib Musubi.Core

variable {serde : SerdeJson} {sha256 : List UInt8 → Digest}

/-! ## 1. Frames and their events -/

/-- The bytes of a frame without a line feed, and whether one ended it. -/
structure Frame where
  body : List UInt8
  terminated : Bool
deriving DecidableEq

def Frame.bytes (f : Frame) : List UInt8 := if f.terminated then f.body ++ [0x0A] else f.body

variable (serde sha256) in
/-- **What becomes of a frame**: it is decoded when a line feed ended it within the bound.  The
length is that of the frame itself, although only its first bytes are kept. -/
def Frame.result (profile : FamilyProfile) (f : Frame) : FrameResult :=
  if !f.terminated then .incompleteEof
  else if maxFrameBytes < f.body.length then .oversized
  else decodeFrame serde sha256 profile f.body

/-- The counts after one frame more. -/
def StreamCounts.record (counts : StreamCounts) (result : FrameResult) : StreamCounts :=
  let counts := { counts with frames := counts.frames + 1 }
  match result with
  | .observation _ => { counts with observations := counts.observations + 1 }
  | .unsupported _ => { counts with unsupportedFrames := counts.unsupportedFrames + 1 }
  | .invalid _ => { counts with invalidFrames := counts.invalidFrames + 1 }
  | .oversized => { counts with oversizedFrames := counts.oversizedFrames + 1 }
  | .incompleteEof => { counts with incompleteFrames := counts.incompleteFrames + 1 }

/-- Every frame has one outcome, so the five counters of outcomes add up to that of the frames. -/
def StreamCounts.Balanced (counts : StreamCounts) : Prop :=
  counts.frames = counts.observations + counts.unsupportedFrames + counts.invalidFrames +
    counts.oversizedFrames + counts.incompleteFrames

@[simp] theorem StreamCounts.record_frames (counts : StreamCounts) (result : FrameResult) :
    (counts.record result).frames = counts.frames + 1 := by
  cases result <;> rfl

theorem StreamCounts.Balanced.record {counts : StreamCounts} (h : counts.Balanced)
    (result : FrameResult) : (counts.record result).Balanced := by
  unfold Balanced at h
  cases result <;> simp only [Balanced, StreamCounts.record] <;> omega

/-- The event of a frame: the bytes are retained up to the bound, and all are counted. -/
def Frame.event (sourceId : String) (arrivalUnixMs : Option Int64) (result : FrameResult)
    (counts : StreamCounts) (f : Frame) : StreamEvent where
  sourceId := sourceId
  arrivalUnixMs := arrivalUnixMs
  frameIndex := counts.frames
  sourceBytes := f.body.take maxFrameBytes
  sourceBytesTruncated := maxFrameBytes < f.body.length
  frameBytes := f.body.length
  terminatedByLf := f.terminated
  platformDomain := .unknown
  result := result
  counts := counts

/-- A stream whose unfinished frame is `tail`: its first bytes are retained, and all are counted.
-/
structure Holds (tail : List UInt8) (s : GpsJsonlStream) : Prop where
  buffer : s.buffer = tail.take maxFrameBytes
  frameBytes : s.frameBytes = tail.length

/-- One more where there is room for it. -/
theorem add_one_eq {value : ℕ} (h : value + 1 < 2 ^ 64) : add value 1 = .ok (value + 1) := by
  rw [add, checkedU64_eq h]

theorem countResult_eq {counts : StreamCounts} (hbalanced : counts.Balanced)
    (hroom : counts.frames + 1 < 2 ^ 64) (result : FrameResult) :
    countResult { counts with frames := counts.frames + 1 } result =
      .ok (counts.record result) := by
  unfold StreamCounts.Balanced at hbalanced
  cases result <;> rw [countResult, add_one_eq (by dsimp only; omega)] <;> rfl

/-- What the stream makes of the frame that it holds: it is the frame's own outcome, whether the
bytes came at once or were gathered from several chunks. -/
theorem Holds.result {s : GpsJsonlStream} {tail : List UInt8} (h : Holds tail s)
    (terminated : Bool) :
    (if !terminated then .incompleteEof
      else if maxFrameBytes < s.frameBytes then .oversized
      else decodeFrame serde sha256 s.profile s.buffer) =
      Frame.result serde sha256 s.profile ⟨tail, terminated⟩ := by
  unfold Frame.result
  rw [h.frameBytes]
  split
  · rfl
  · split
    · rfl
    · next hlength => rw [h.buffer, List.take_of_length_le (Nat.le_of_not_lt hlength)]

/-- **One frame**: its event is emitted, and the stream holds none. -/
theorem emitFrame_eq {s : GpsJsonlStream} {tail : List UInt8} (h : Holds tail s)
    (hbalanced : s.counts.Balanced) (hroom : s.counts.frames + 1 < 2 ^ 64) {terminated : Bool}
    {result : FrameResult}
    (hresult : Frame.result serde sha256 s.profile ⟨tail, terminated⟩ = result) :
    s.emitFrame serde sha256 terminated = .ok (
      { s with
        counts := s.counts.record result
        buffer := []
        frameBytes := 0
        arrivalUnixMs := none },
      Frame.event s.sourceId s.arrivalUnixMs result (s.counts.record result)
        ⟨tail, terminated⟩) := by
  unfold GpsJsonlStream.emitFrame
  rw [h.result, hresult, add_one_eq hroom]
  refine bind_eq_ok.mpr ⟨_, rfl, bind_eq_ok.mpr ⟨_, countResult_eq hbalanced hroom result, ?_⟩⟩
  rw [Frame.event, h.buffer, h.frameBytes]
  rfl

/-- Bytes that hold no line feed are retained up to the bound. -/
theorem Holds.extend {s : GpsJsonlStream} {tail : List UInt8} (h : Holds tail s)
    (segment : List UInt8) (arrivalUnixMs : Option Int64) :
    Holds (tail ++ segment) { s with
      frameBytes := s.frameBytes + segment.length
      buffer := s.buffer ++
        segment.take (min segment.length (maxFrameBytes - s.buffer.length))
      arrivalUnixMs } := by
  constructor
  · dsimp only
    rw [h.buffer, List.take_append]
    congr 1
    rw [List.take_eq_take_iff, List.length_take]
    omega
  · dsimp only
    rw [h.frameBytes, List.length_append]

/-! ## 2. The events of some frames -/

/-- An event without its arrival and its count of bytes. -/
def StreamEvent.common (e : StreamEvent) : StreamEvent :=
  { e with arrivalUnixMs := none, counts := { e.counts with bytesReceived := 0 } }

variable (serde sha256) in
/-- The counts behind some frames. -/
def countsAfter (profile : FamilyProfile) (counts : StreamCounts) (frames : List Frame) :
    StreamCounts :=
  frames.foldl (fun counts f => counts.record (f.result serde sha256 profile)) counts

variable (serde sha256) in
/-- What the events of some frames have in common. -/
def commonEvents (profile : FamilyProfile) (sourceId : String) :
    StreamCounts → List Frame → List StreamEvent
  | _, [] => []
  | counts, f :: frames =>
    let result := f.result serde sha256 profile
    f.event sourceId none result (counts.record result) ::
      commonEvents profile sourceId (counts.record result) frames

theorem commonEvents_append (profile : FamilyProfile) (sourceId : String) (more : List Frame)
    (frames : List Frame) : ∀ counts : StreamCounts,
      commonEvents serde sha256 profile sourceId counts (frames ++ more) =
        commonEvents serde sha256 profile sourceId counts frames ++
          commonEvents serde sha256 profile sourceId
            (countsAfter serde sha256 profile counts frames) more := by
  induction frames with
  | nil => exact fun counts => rfl
  | cons f frames ih =>
    intro counts
    rw [List.cons_append, commonEvents, commonEvents, ih, List.cons_append]
    rfl

theorem countsAfter_append (profile : FamilyProfile) (counts : StreamCounts)
    (frames more : List Frame) : countsAfter serde sha256 profile counts (frames ++ more) =
      countsAfter serde sha256 profile (countsAfter serde sha256 profile counts frames) more :=
  List.foldl_append

variable (serde sha256) in
theorem countsAfter_frames (profile : FamilyProfile) (frames : List Frame) :
    ∀ counts : StreamCounts, (countsAfter serde sha256 profile counts frames).frames =
      counts.frames + frames.length := by
  induction frames with
  | nil => exact fun counts => rfl
  | cons f frames ih =>
    intro counts
    rw [countsAfter, List.foldl_cons, ← countsAfter, ih, StreamCounts.record_frames,
      List.length_cons]
    omega

variable (serde sha256) in
theorem balanced_countsAfter (profile : FamilyProfile) (frames : List Frame) :
    ∀ {counts : StreamCounts}, counts.Balanced →
      (countsAfter serde sha256 profile counts frames).Balanced := by
  induction frames with
  | nil => exact fun h => h
  | cons f frames ih =>
    intro counts h
    exact ih (h.record _)

/-! ## 3. One chunk -/

/-- Counts with another count of the bytes. -/
def StreamCounts.withBytes (bytesReceived : ℕ) (counts : StreamCounts) : StreamCounts :=
  { counts with bytesReceived }

theorem StreamCounts.withBytes_record (n : ℕ) (counts : StreamCounts) (result : FrameResult) :
    (counts.record result).withBytes n = (counts.withBytes n).record result := by
  cases result <;> rfl

theorem StreamCounts.withBytes_withBytes (m n : ℕ) (counts : StreamCounts) :
    (counts.withBytes m).withBytes n = counts.withBytes n := rfl

theorem countsAfter_withBytes (profile : FamilyProfile) (n : ℕ) (frames : List Frame) :
    ∀ counts : StreamCounts, countsAfter serde sha256 profile (counts.withBytes n) frames =
      (countsAfter serde sha256 profile counts frames).withBytes n := by
  induction frames with
  | nil => exact fun counts => rfl
  | cons f frames ih =>
    intro counts
    rw [countsAfter, List.foldl_cons, ← StreamCounts.withBytes_record, ← countsAfter, ih]
    rfl

theorem common_event (f : Frame) (sourceId : String) (arrivalUnixMs : Option Int64)
    (result : FrameResult) (counts : StreamCounts) :
    (f.event sourceId arrivalUnixMs result counts).common =
      f.event sourceId none result (counts.withBytes 0) := rfl

/-- Frames that line feeds ended. -/
def ended (bodies : List (List UInt8)) : List Frame := bodies.map fun body => ⟨body, true⟩

variable (serde sha256) in
/-- What a chunk does to a stream with an unfinished frame: the frames that it ends have their
events, and what it leaves open is held.  The first of these frames begins with the old tail. -/
structure Pushed (s : GpsJsonlStream) (tail bytes : List UInt8) (call : Call)
    (bodies : List (List UInt8)) (tail' : List UInt8) : Prop where
  framed : Framed 0x0A (tail ++ bytes) bodies tail'
  holds : Holds tail' call.stream
  result : call.result = .ok ()
  events : call.events.map StreamEvent.common =
    commonEvents serde sha256 s.profile s.sourceId (s.counts.withBytes 0) (ended bodies)
  counts : call.stream.counts = countsAfter serde sha256 s.profile s.counts (ended bodies)
  profile : call.stream.profile = s.profile
  sourceId : call.stream.sourceId = s.sourceId
  finished : call.stream.finished = s.finished

/-- **One chunk.**  There is room for every frame, since each has a byte of its own. -/
theorem pushFrames_spec (arrivalUnixMs : Option Int64) (remaining : List UInt8) :
    ∀ {s : GpsJsonlStream} {tail : List UInt8}, Holds tail s → 0x0A ∉ tail → s.counts.Balanced →
      s.counts.frames + tail.length + remaining.length < 2 ^ 64 →
      ∃ bodies tail', Pushed serde sha256 s tail remaining
        (s.pushFrames serde sha256 arrivalUnixMs remaining) bodies tail' := by
  induction remaining using pieces_induction (0x0A : UInt8) with
  | nil =>
    intro s tail h htail _ _
    rw [GpsJsonlStream.pushFrames, if_pos rfl]
    refine ⟨[], tail, ?_, h, rfl, rfl, rfl, rfl, rfl, rfl⟩
    rw [List.append_nil]
    exact .unended htail
  | cons remaining piece rest hne hfirst ih =>
    intro s tail h htail hbalanced hroom
    cases hfirst with
    | unended hbody =>
      rw [GpsJsonlStream.pushFrames, if_neg hne, List.idxOf?_eq_none_iff.mpr hbody]
      dsimp only
      rw [Option.getD_none, List.take_length]
      have hadd : add s.frameBytes remaining.length = .ok (s.frameBytes + remaining.length) := by
        rw [add, checkedU64_eq]
        rw [h.frameBytes]
        omega
      rw [hadd]
      exact ⟨[], tail ++ remaining, .unended (List.not_mem_append htail hbody),
        h.extend remaining arrivalUnixMs, rfl, rfl, rfl, rfl, rfl, rfl⟩
    | @ended body rest hbody =>
      rw [List.length_append, List.length_cons] at hroom
      have hadd : add s.frameBytes body.length = .ok (s.frameBytes + body.length) := by
        rw [add, checkedU64_eq]
        rw [h.frameBytes]
        omega
      have hholds := h.extend body arrivalUnixMs
      generalize hresult : Frame.result serde sha256 s.profile ⟨tail ++ body, true⟩ = result
      have hemit := emitFrame_eq hholds hbalanced (by dsimp only; omega) hresult
      obtain ⟨bodies, tail', hrest⟩ := @ih { s with
        counts := s.counts.record result
        buffer := []
        frameBytes := 0
        arrivalUnixMs := none } [] ⟨rfl, rfl⟩ (by simp) (hbalanced.record result)
        (by simp only [StreamCounts.record_frames, List.length_nil]; omega)
      rw [GpsJsonlStream.pushFrames, if_neg hne, idxOf?_ended hbody]
      dsimp only at hemit ⊢
      rw [Option.getD_some, List.take_left, hadd]
      dsimp only
      rw [hemit]
      dsimp only
      rw [List.drop_length_add_append, List.drop_succ_cons, List.drop_zero]
      have hframed := hrest.framed
      rw [List.nil_append] at hframed
      refine ⟨(tail ++ body) :: bodies, tail', ?_, hrest.holds, hrest.result, ?_, ?_,
        hrest.profile, hrest.sourceId, hrest.finished⟩
      · rw [← List.append_assoc]
        exact .cons (List.not_mem_append htail hbody) hframed
      · rw [ended, List.map_cons, List.map_cons, commonEvents, common_event, hresult, hrest.events,
          ← StreamCounts.withBytes_record]
        rfl
      · rw [hrest.counts, ← hresult]
        rfl

/-- A chunk whose bytes are counted, and whose frames do not fail. -/
theorem push_eq {s : GpsJsonlStream} (hfinished : s.finished = false) {bytes : List UInt8}
    {n : ℕ} (hadd : add s.counts.bytesReceived bytes.length = .ok n)
    {arrivalUnixMs : Option Int64} {call : Call}
    (hcall : GpsJsonlStream.pushFrames serde sha256 arrivalUnixMs
      { s with counts := s.counts.withBytes n } bytes = call) (hresult : call.result = .ok ()) :
    s.push serde sha256 bytes arrivalUnixMs = call := by
  have hinner : s.pushInner serde sha256 bytes arrivalUnixMs = call := by
    unfold GpsJsonlStream.pushInner
    rw [hadd]
    exact hcall
  unfold GpsJsonlStream.push
  rw [if_neg (by simp [hfinished]), hinner]
  dsimp only
  rw [hresult]

/-- A chunk whose bytes there is no room to count is refused before any of it is looked at, and
the stream is finished. -/
theorem push_overflow {s : GpsJsonlStream} (hfinished : s.finished = false) {bytes : List UInt8}
    {e : ReadError} (hadd : add s.counts.bytesReceived bytes.length = .error e)
    (arrivalUnixMs : Option Int64) :
    s.push serde sha256 bytes arrivalUnixMs = ⟨{ s with finished := true }, [], .error e⟩ := by
  have hinner : s.pushInner serde sha256 bytes arrivalUnixMs = ⟨s, [], .error e⟩ := by
    unfold GpsJsonlStream.pushInner
    rw [hadd]
  unfold GpsJsonlStream.push
  rw [if_neg (by simp [hfinished]), hinner]

/-- A stream that holds a frame when it is finished reports it as incomplete, with what it has of
it. -/
theorem finish_frame {s : GpsJsonlStream} (hfinished : s.finished = false) {tail : List UInt8}
    (h : Holds tail s) (hpos : 0 < tail.length) (hbalanced : s.counts.Balanced)
    (hroom : s.counts.frames + 1 < 2 ^ 64) {result : FrameResult}
    (hresult : Frame.result serde sha256 s.profile ⟨tail, false⟩ = result) :
    s.finish serde sha256 = ⟨
      { s with
        finished := true
        counts := s.counts.record result
        buffer := []
        frameBytes := 0
        arrivalUnixMs := none },
      [Frame.event s.sourceId s.arrivalUnixMs result (s.counts.record result) ⟨tail, false⟩],
      .ok ()⟩ := by
  have hemit := @emitFrame_eq serde sha256 { s with finished := true } tail
    ⟨h.buffer, h.frameBytes⟩ hbalanced hroom false result hresult
  unfold GpsJsonlStream.finish
  rw [if_neg (by simp [hfinished])]
  dsimp only
  rw [if_pos (by rw [h.frameBytes]; exact hpos), hemit]

/-! ## 4. Runs -/

/-- The bytes that a call has pushed, if it succeeds. -/
def pushedBytes : Op × Except ReadError Unit → List UInt8
  | (.push bytes _, .ok ()) => bytes
  | _ => []

/-- The bytes that the calls so far have pushed. -/
def Run.pushed (run : Run) : List UInt8 := run.results.flatMap pushedBytes

/-- The frame that is not finished, which is none when there are no bytes. -/
def openFrame (tail : List UInt8) : List Frame := if tail = [] then [] else [⟨tail, false⟩]

variable (serde sha256) in
/-- **The account of a run**: its events are those of the frames, and its counts are those behind
the frames and of all the bytes. -/
structure Account (s₀ : GpsJsonlStream) (run : Run) (frames : List Frame) : Prop where
  events : run.events.map StreamEvent.common =
    commonEvents serde sha256 s₀.profile s₀.sourceId {} frames
  counts : run.stream.counts =
    (countsAfter serde sha256 s₀.profile {} frames).withBytes run.pushed.length
  room : run.pushed.length < 2 ^ 64
  profile : run.stream.profile = s₀.profile
  sourceId : run.stream.sourceId = s₀.sourceId

variable (serde sha256) in
/-- A run with the frames that line feeds have ended, and one with the frame that they have not:
the stream holds it, or has given it up.  A stream gives up when it is finished or has failed. -/
inductive Reached (s₀ : GpsJsonlStream) (run : Run) : Prop
  | live {bodies : List (List UInt8)} {tail : List UInt8}
    (framed : Framed 0x0A run.pushed bodies tail) (holds : Holds tail run.stream)
    (account : Account serde sha256 s₀ run (ended bodies))
    (finished : run.stream.finished = false)
  | failed {bodies : List (List UInt8)} {tail : List UInt8}
    (framed : Framed 0x0A run.pushed bodies tail) (holds : Holds tail run.stream)
    (account : Account serde sha256 s₀ run (ended bodies))
    (finished : run.stream.finished = true)
  | closed {bodies : List (List UInt8)} {tail : List UInt8}
    (framed : Framed 0x0A run.pushed bodies tail) (holds : Holds [] run.stream)
    (account : Account serde sha256 s₀ run (ended bodies ++ openFrame tail))
    (finished : run.stream.finished = true)

/-- A call on a finished stream does nothing: the stream is as it was, no event is handed out, and
the caller is told. -/
theorem call_finished {s : GpsJsonlStream} (h : s.finished = true) (op : Op) :
    s.call serde sha256 op = ⟨s, [], .error (streamError "stream already finished")⟩ := by
  cases op with
  | push bytes arrivalUnixMs => exact if_pos h
  | finish => exact if_pos h

theorem Run.step_eq {run : Run} (op : Op) {call : Call}
    (h : run.stream.call serde sha256 op = call) : run.step serde sha256 op =
      ⟨call.stream, run.events ++ call.events, run.results ++ [(op, call.result)]⟩ := by
  rw [Run.step, h]

theorem Run.pushed_step (run : Run) (op : Op) : (run.step serde sha256 op).pushed =
    run.pushed ++ pushedBytes (op, (run.stream.call serde sha256 op).result) := by
  rw [Run.pushed, Run.step, List.flatMap_append, List.flatMap_singleton]
  rfl

variable (serde sha256) in
theorem Run.pushed_step_finish (run : Run) :
    (run.step serde sha256 .finish).pushed = run.pushed := by
  rw [Run.pushed_step]
  exact List.append_nil _

/-- A call that does nothing keeps the account: no frame is added on either side. -/
theorem Account.step_idle {s₀ : GpsJsonlStream} {run : Run} {frames : List Frame}
    (h : Account serde sha256 s₀ run frames) {op : Op} {stream : GpsJsonlStream} {e : ReadError}
    (hcall : run.stream.call serde sha256 op = ⟨stream, [], .error e⟩)
    (hcounts : stream.counts = run.stream.counts) (hprofile : stream.profile = run.stream.profile)
    (hsource : stream.sourceId = run.stream.sourceId) :
    Account serde sha256 s₀ (run.step serde sha256 op) frames ∧
      (run.step serde sha256 op).pushed = run.pushed := by
  have hpushed : (run.step serde sha256 op).pushed = run.pushed := by
    rw [Run.pushed_step, hcall]
    cases op <;> exact List.append_nil _
  refine ⟨⟨?_, ?_, ?_, ?_, ?_⟩, hpushed⟩
  · rw [Run.step, hcall, List.append_nil]
    exact h.events
  · rw [hpushed, Run.step, hcall, ← h.counts]
    exact hcounts
  · rw [hpushed]
    exact h.room
  · rw [Run.step, hcall, ← h.profile]
    exact hprofile
  · rw [Run.step, hcall, ← h.sourceId]
    exact hsource

theorem Account.bytesReceived {s₀ : GpsJsonlStream} {run : Run} {frames : List Frame}
    (h : Account serde sha256 s₀ run frames) :
    run.stream.counts.bytesReceived = run.pushed.length := by
  rw [h.counts]
  rfl

/-- Every frame is counted, and has one outcome, so the counters of the outcomes add up to that of
the frames. -/
theorem Account.frames_eq {s₀ : GpsJsonlStream} {run : Run} {frames : List Frame}
    (h : Account serde sha256 s₀ run frames) :
    run.stream.counts.frames = frames.length ∧ run.stream.counts.Balanced := by
  have hcount := countsAfter_frames serde sha256 s₀.profile frames {}
  have hbalanced : StreamCounts.Balanced {} := rfl
  rw [h.counts]
  constructor
  · exact hcount.trans (Nat.zero_add _)
  · exact balanced_countsAfter serde sha256 s₀.profile frames hbalanced

/-- The counts but for that of the bytes depend on the frames alone. -/
theorem Account.withBytes {s₀ : GpsJsonlStream} {run : Run} {frames : List Frame}
    (h : Account serde sha256 s₀ run frames) :
    run.stream.counts.withBytes 0 = countsAfter serde sha256 s₀.profile {} frames := by
  rw [h.counts]
  exact (countsAfter_withBytes s₀.profile 0 frames {}).symm

/-- A chunk that the count of the bytes has room for. -/
theorem Account.step_push {s₀ : GpsJsonlStream} {run : Run} {bodies : List (List UInt8)}
    {tail : List UInt8} (hframed : Framed 0x0A run.pushed bodies tail)
    (hholds : Holds tail run.stream) (h : Account serde sha256 s₀ run (ended bodies))
    (hfinished : run.stream.finished = false) {bytes : List UInt8}
    (hroom : run.pushed.length + bytes.length < 2 ^ 64) (arrivalUnixMs : Option Int64) :
    (run.stream.push serde sha256 bytes arrivalUnixMs).result = .ok () ∧
      (run.step serde sha256 (.push bytes arrivalUnixMs)).pushed = run.pushed ++ bytes ∧
      (run.step serde sha256 (.push bytes arrivalUnixMs)).stream.finished = false ∧
      Reached serde sha256 s₀ (run.step serde sha256 (.push bytes arrivalUnixMs)) := by
  obtain ⟨hframes, hbalanced⟩ := h.frames_eq
  have hlength := hframed.length
  rw [ended, List.length_map] at hframes
  have hadd : add run.stream.counts.bytesReceived bytes.length =
      .ok (run.pushed.length + bytes.length) := by
    rw [add, h.bytesReceived, checkedU64_eq hroom]
  obtain ⟨more, tail', hpushed⟩ := @pushFrames_spec serde sha256 arrivalUnixMs bytes
    { run.stream with counts := run.stream.counts.withBytes (run.pushed.length + bytes.length) }
    tail ⟨hholds.buffer, hholds.frameBytes⟩ hframed.tail hbalanced
    (by simp only [StreamCounts.withBytes]; omega)
  have hcall := push_eq hfinished hadd rfl hpushed.result
  rw [← hcall] at hpushed
  have hstep : (run.step serde sha256 (.push bytes arrivalUnixMs)).pushed =
      run.pushed ++ bytes := by
    rw [Run.pushed_step]
    change _ ++ pushedBytes (_, (run.stream.push serde sha256 bytes arrivalUnixMs).result) = _
    rw [hpushed.result]
    rfl
  have hlive := hpushed.finished.trans hfinished
  refine ⟨hpushed.result, hstep, hlive, ?_⟩
  have hended : ended (bodies ++ more) = ended bodies ++ ended more := List.map_append
  refine @Reached.live _ _ _ _ (bodies ++ more) tail' ?_ hpushed.holds ⟨?_, ?_, ?_, ?_, ?_⟩ hlive
  · rw [hstep]
    exact hframed.append hpushed.framed
  · rw [hended, commonEvents_append, ← h.events]
    change (run.events ++ (run.stream.push serde sha256 bytes arrivalUnixMs).events).map _ = _
    rw [List.map_append, hpushed.events]
    dsimp only
    rw [h.profile, h.sourceId, StreamCounts.withBytes_withBytes, h.withBytes]
  · rw [hstep]
    change (run.stream.push serde sha256 bytes arrivalUnixMs).stream.counts = _
    rw [hpushed.counts, hended, List.length_append]
    dsimp only
    rw [h.profile, h.counts, countsAfter_append]
    exact countsAfter_withBytes s₀.profile (run.pushed.length + bytes.length) (ended more)
      (countsAfter serde sha256 s₀.profile {} (ended bodies))
  · rw [hstep, List.length_append]
    exact hroom
  · exact hpushed.profile.trans h.profile
  · exact hpushed.sourceId.trans h.sourceId

/-- The end of a stream: the frame that it holds is given up. -/
theorem Account.step_finish {s₀ : GpsJsonlStream} {run : Run} {bodies : List (List UInt8)}
    {tail : List UInt8} (hframed : Framed 0x0A run.pushed bodies tail)
    (hholds : Holds tail run.stream) (h : Account serde sha256 s₀ run (ended bodies))
    (hfinished : run.stream.finished = false) :
    (run.stream.finish serde sha256).result = .ok () ∧
      Account serde sha256 s₀ (run.step serde sha256 .finish) (ended bodies ++ openFrame tail) ∧
      Holds [] (run.step serde sha256 .finish).stream ∧
      (run.step serde sha256 .finish).stream.finished = true := by
  obtain ⟨hframes, hbalanced⟩ := h.frames_eq
  have hlength := hframed.length
  have hroom := h.room
  rw [ended, List.length_map] at hframes
  have hpushed := run.pushed_step_finish serde sha256
  by_cases htail : tail = []
  · subst htail
    have hcall : run.stream.finish serde sha256 =
        ⟨{ run.stream with finished := true }, [], .ok ()⟩ := by
      unfold GpsJsonlStream.finish
      rw [if_neg (by simp [hfinished])]
      dsimp only
      rw [if_neg (by simp [hholds.frameBytes])]
    have hstep := Run.step_eq .finish hcall
    rw [hcall, openFrame, if_pos rfl, List.append_nil]
    refine ⟨rfl, ⟨?_, ?_, ?_, ?_, ?_⟩, ?_, ?_⟩
    · rw [hstep, List.append_nil]
      exact h.events
    · rw [hpushed, hstep]
      exact h.counts
    · rw [hpushed]
      exact h.room
    · rw [hstep]
      exact h.profile
    · rw [hstep]
      exact h.sourceId
    · rw [hstep]
      exact ⟨hholds.buffer, hholds.frameBytes⟩
    · rw [hstep]
  · have hpos := List.length_pos_of_ne_nil htail
    generalize hresult : Frame.result serde sha256 run.stream.profile ⟨tail, false⟩ = result
    have hcall := finish_frame hfinished hholds hpos hbalanced (by omega) hresult
    have hstep := Run.step_eq .finish hcall
    rw [hcall, openFrame, if_neg htail]
    refine ⟨rfl, ⟨?_, ?_, ?_, ?_, ?_⟩, ?_, ?_⟩
    · have hevents := h.withBytes
      rw [hstep, List.map_append, commonEvents_append, h.events, ← hevents, List.map_singleton,
        common_event, commonEvents, commonEvents, ← h.profile, ← h.sourceId, hresult,
        StreamCounts.withBytes_record]
    · rw [hpushed, hstep, countsAfter_append, countsAfter, List.foldl_cons, List.foldl_nil,
        StreamCounts.withBytes_record, ← h.counts, ← h.profile, hresult]
    · rw [hpushed]
      exact h.room
    · rw [hstep]
      exact h.profile
    · rw [hstep]
      exact h.sourceId
    · rw [hstep]
      exact ⟨rfl, rfl⟩
    · rw [hstep]

theorem new_eq {s₀ : GpsJsonlStream} {profile : FamilyProfile} {sourceId : String}
    (hnew : GpsJsonlStream.new profile sourceId = .ok s₀) : s₀ = { profile, sourceId } := by
  unfold GpsJsonlStream.new at hnew
  split at hnew
  · cases hnew
  split at hnew
  · cases hnew
  split at hnew
  · cases hnew
  · exact (Except.ok.inj hnew).symm

variable (serde sha256) in
/-- A stream that has nothing yet has the account of no frames; the base of the induction over a
run. -/
theorem reached_new {s₀ : GpsJsonlStream} {profile : FamilyProfile} {sourceId : String}
    (hnew : GpsJsonlStream.new profile sourceId = .ok s₀) :
    Reached serde sha256 s₀ { stream := s₀ } := by
  rw [new_eq hnew]
  exact .live (.nil 0x0A) ⟨rfl, rfl⟩ ⟨rfl, rfl, Nat.two_pow_pos 64, rfl, rfl⟩ rfl

/-- **Every call keeps the account.** -/
theorem Reached.step {s₀ : GpsJsonlStream} {run : Run} (h : Reached serde sha256 s₀ run) (op : Op) :
    Reached serde sha256 s₀ (run.step serde sha256 op) := by
  cases h with
  | live framed holds account finished =>
    cases op with
    | finish =>
      obtain ⟨-, haccount, hholds, hfinished⟩ := account.step_finish framed holds finished
      refine .closed ?_ hholds haccount hfinished
      rw [Run.pushed_step_finish]
      exact framed
    | push bytes arrivalUnixMs =>
      by_cases hroom : run.pushed.length + bytes.length < 2 ^ 64
      · exact (account.step_push framed holds finished hroom arrivalUnixMs).2.2.2
      · have hadd : add run.stream.counts.bytesReceived bytes.length =
            .error (streamError "stream counter overflow") := by
          rw [account.bytesReceived, add, checkedU64, if_neg hroom]
        have hcall : run.stream.call serde sha256 (.push bytes arrivalUnixMs) = _ :=
          push_overflow finished hadd arrivalUnixMs
        obtain ⟨haccount, hpushed⟩ := account.step_idle hcall rfl rfl rfl
        have hstep := Run.step_eq (.push bytes arrivalUnixMs) hcall
        refine .failed (hpushed ▸ framed) ?_ haccount ?_
        · rw [hstep]
          exact ⟨holds.buffer, holds.frameBytes⟩
        · rw [hstep]
  | failed framed holds account finished =>
    have hcall := @call_finished serde sha256 _ finished op
    obtain ⟨haccount, hpushed⟩ := account.step_idle hcall rfl rfl rfl
    have hstep := Run.step_eq op hcall
    refine .failed (hpushed ▸ framed) ?_ haccount ?_
    · rw [hstep]
      exact holds
    · rw [hstep]
      exact finished
  | closed framed holds account finished =>
    have hcall := @call_finished serde sha256 _ finished op
    obtain ⟨haccount, hpushed⟩ := account.step_idle hcall rfl rfl rfl
    have hstep := Run.step_eq op hcall
    refine .closed (hpushed ▸ framed) ?_ haccount ?_
    · rw [hstep]
      exact holds
    · rw [hstep]
      exact finished

/-- **Every run keeps the account.** -/
theorem reached_run {s₀ : GpsJsonlStream} {profile : FamilyProfile} {sourceId : String}
    (hnew : GpsJsonlStream.new profile sourceId = .ok s₀) (ops : List Op) :
    Reached serde sha256 s₀ (s₀.run serde sha256 ops) := by
  induction ops using List.reverseRecOn with
  | nil => exact reached_new serde sha256 hnew
  | append_singleton ops op ih =>
    rw [GpsJsonlStream.run, List.foldl_append, ← GpsJsonlStream.run]
    exact ih.step op

/-! ## 5. What the account says -/

def FrameResult.isDecoded : FrameResult → Bool
  | .observation _ => true
  | .unsupported _ => true
  | .invalid _ => true
  | .oversized => false
  | .incompleteEof => false

theorem isDecoded_decodeFrame (profile : FamilyProfile) (bytes : List UInt8) :
    (decodeFrame serde sha256 profile bytes).isDecoded = true := by
  unfold decodeFrame
  dsimp only
  repeat' split
  all_goals rfl

/-- A frame is decoded when a line feed ended it within the bound. -/
theorem isDecoded_result (profile : FamilyProfile) (f : Frame) :
    (f.result serde sha256 profile).isDecoded = true ↔
      f.terminated = true ∧ f.body.length ≤ maxFrameBytes := by
  unfold Frame.result
  cases f.terminated with
  | false => simp [FrameResult.isDecoded]
  | true =>
    by_cases hlength : maxFrameBytes < f.body.length
    · simp [hlength, FrameResult.isDecoded]
    · simp [hlength, isDecoded_decodeFrame, Nat.le_of_not_lt hlength]

variable (serde sha256) in
/-- The event of a frame says where it came from and what became of it. -/
structure Makes (profile : FamilyProfile) (f : Frame) (e : StreamEvent) : Prop where
  frameBytes : e.frameBytes = f.body.length
  terminatedByLf : e.terminatedByLf = f.terminated
  sourceBytes : e.sourceBytes = f.body.take maxFrameBytes
  truncated : e.sourceBytesTruncated = decide (maxFrameBytes < f.body.length)
  result : e.result = f.result serde sha256 profile
  balanced : e.counts.Balanced

theorem makes_commonEvents {profile : FamilyProfile} {sourceId : String} (frames : List Frame) :
    ∀ {counts : StreamCounts} {events : List StreamEvent}, counts.Balanced →
      events.map StreamEvent.common =
        commonEvents serde sha256 profile sourceId counts frames →
      List.Forall₂ (Makes serde sha256 profile) frames events := by
  induction frames with
  | nil =>
    intro counts events _ h
    rw [commonEvents, List.map_eq_nil_iff] at h
    rw [h]
    exact .nil
  | cons f frames ih =>
    intro counts events hbalanced h
    rw [commonEvents, List.map_eq_cons_iff] at h
    obtain ⟨e, more, rfl, he, hmore⟩ := h
    refine .cons ?_ (ih (hbalanced.record _) hmore)
    have hcounts : { e.counts with bytesReceived := 0 } =
        counts.record (f.result serde sha256 profile) := congrArg StreamEvent.counts he
    have hrecord := hbalanced.record (f.result serde sha256 profile)
    rw [← hcounts] at hrecord
    exact ⟨congrArg StreamEvent.frameBytes he, congrArg StreamEvent.terminatedByLf he,
      congrArg StreamEvent.sourceBytes he, congrArg StreamEvent.sourceBytesTruncated he,
      congrArg StreamEvent.result he, hrecord⟩

/-- An event says of its frame what became of it: decoded exactly if a line feed ended it within
the bound, incomplete if none did, and with no more bytes than the bound. -/
structure EventKept (e : StreamEvent) : Prop where
  balanced : e.counts.Balanced
  decoded : e.result.isDecoded = true ↔ e.terminatedByLf = true ∧ e.frameBytes ≤ maxFrameBytes
  unterminated : e.terminatedByLf = false → e.result = .incompleteEof
  retained : e.sourceBytes.length ≤ maxFrameBytes

theorem Makes.kept {profile : FamilyProfile} {f : Frame} {e : StreamEvent}
    (h : Makes serde sha256 profile f e) : EventKept e := by
  refine ⟨h.balanced, ?_, ?_, ?_⟩
  · rw [h.result, h.terminatedByLf, h.frameBytes]
    exact isDecoded_result profile f
  · intro hterminated
    rw [h.terminatedByLf] at hterminated
    rw [h.result, Frame.result, hterminated]
    rfl
  · rw [h.sourceBytes, List.length_take]
    exact Nat.min_le_left _ _

/-- The counts that some events were counted to. -/
def tally (events : List StreamEvent) : StreamCounts :=
  events.foldl (fun counts e => counts.record e.result) {}

theorem countsAfter_eq_tally {profile : FamilyProfile} {frames : List Frame}
    {events : List StreamEvent} (h : List.Forall₂ (Makes serde sha256 profile) frames events) :
    countsAfter serde sha256 profile {} frames = tally events := by
  unfold countsAfter tally
  generalize ({} : StreamCounts) = counts
  induction h generalizing counts with
  | nil => rfl
  | cons hmakes hrest ih =>
    rw [List.foldl_cons, List.foldl_cons, ih, hmakes.result]

/-- **What a stream keeps at every point**: the counters are the exact tally of the events, none of
them has wrapped, and the buffer is bounded. -/
structure StreamKept (run : Run) : Prop where
  counts : run.stream.counts = (tally run.events).withBytes run.pushed.length
  balanced : run.stream.counts.Balanced
  frames : run.stream.counts.frames = run.events.length
  frames_le : run.stream.counts.frames ≤ run.stream.counts.bytesReceived
  room : run.stream.counts.bytesReceived < 2 ^ 64
  frameBytes : run.stream.frameBytes < 2 ^ 64
  buffer : run.stream.buffer.length ≤ maxFrameBytes
  events : ∀ e ∈ run.events, EventKept e

theorem Account.makes {s₀ : GpsJsonlStream} {run : Run} {frames : List Frame}
    (h : Account serde sha256 s₀ run frames) :
    List.Forall₂ (Makes serde sha256 s₀.profile) frames run.events :=
  makes_commonEvents frames (Eq.refl _ : StreamCounts.Balanced {}) h.events

theorem Account.kept {s₀ : GpsJsonlStream} {run : Run} {frames : List Frame}
    (h : Account serde sha256 s₀ run frames) {tail : List UInt8} (hholds : Holds tail run.stream)
    (htail : tail.length ≤ run.pushed.length) (hframes : frames.length ≤ run.pushed.length) :
    StreamKept run := by
  obtain ⟨hcount, hbalanced⟩ := h.frames_eq
  have hroom := h.room
  have hmakes := h.makes
  refine ⟨?_, hbalanced, hcount.trans hmakes.length_eq, ?_, ?_, ?_, ?_, ?_⟩
  · rw [h.counts, countsAfter_eq_tally hmakes]
  · rw [hcount, h.bytesReceived]
    exact hframes
  · rw [h.bytesReceived]
    exact hroom
  · rw [hholds.frameBytes]
    omega
  · rw [hholds.buffer, List.length_take]
    exact Nat.min_le_left _ _
  · intro e he
    have hkept : List.Forall₂ (fun e (_ : Frame) => EventKept e ∧ True) run.events frames :=
      (hmakes.imp fun _ _ h => ⟨h.kept, trivial⟩).flip
    exact (List.forall₂_and_left _ _ |>.mp hkept).1 e he

theorem Reached.kept {s₀ : GpsJsonlStream} {run : Run} (h : Reached serde sha256 s₀ run) :
    StreamKept run := by
  cases h with
  | live framed holds account finished =>
    have hlength := framed.length
    refine account.kept holds (by omega) ?_
    rw [ended, List.length_map]
    omega
  | failed framed holds account finished =>
    have hlength := framed.length
    refine account.kept holds (by omega) ?_
    rw [ended, List.length_map]
    omega
  | @closed bodies tail framed holds account finished =>
    have hlength := framed.length
    refine account.kept holds (Nat.zero_le _) ?_
    rw [List.length_append, ended, List.length_map, openFrame]
    split
    · simpa using by omega
    · next hne =>
      have hpos := List.length_pos_of_ne_nil hne
      rw [List.length_singleton]
      omega

/-! ## 6. Chunks -/

/-- A byte string in chunks, each with its arrival, and the end of the stream. -/
def chunkOps (chunks : List (List UInt8 × Option Int64)) : List Op :=
  chunks.map (fun (bytes, arrivalUnixMs) => .push bytes arrivalUnixMs) ++ [.finish]

/-- **The frames of a byte string**: line feeds end all but the last, which may be unended. -/
structure Frames (bytes : List UInt8) (frames : List Frame) : Prop where
  partition : (frames.map Frame.bytes).flatten = bytes
  body : ∀ f ∈ frames, 0x0A ∉ f.body
  ne_nil : ∀ f ∈ frames, f.bytes ≠ []
  terminated : ∀ f ∈ frames.dropLast, f.terminated = true

theorem frames_of_framed {bytes tail : List UInt8} {bodies : List (List UInt8)}
    (h : Framed 0x0A bytes bodies tail) : Frames bytes (ended bodies ++ openFrame tail) := by
  have hbytes : ((ended bodies).map Frame.bytes) = bodies.map (· ++ [0x0A]) := by
    rw [ended, List.map_map]
    rfl
  by_cases htail : tail = []
  · rw [openFrame, if_pos htail, List.append_nil]
    refine ⟨?_, ?_, ?_, ?_⟩
    · rw [hbytes, h.eq, htail, List.append_nil]
    · intro f hf
      obtain ⟨body, hbody, rfl⟩ := List.mem_map.mp hf
      exact h.bodies body hbody
    · intro f hf
      obtain ⟨body, hbody, rfl⟩ := List.mem_map.mp hf
      simp [Frame.bytes]
    · intro f hf
      obtain ⟨body, hbody, rfl⟩ := List.mem_map.mp (List.mem_of_mem_dropLast hf)
      rfl
  · rw [openFrame, if_neg htail]
    refine ⟨?_, ?_, ?_, ?_⟩
    · rw [List.map_append, hbytes, List.flatten_append, h.eq]
      simp [Frame.bytes]
    · intro f hf
      rcases List.mem_append.mp hf with hf | hf
      · obtain ⟨body, hbody, rfl⟩ := List.mem_map.mp hf
        exact h.bodies body hbody
      · rw [List.mem_singleton.mp hf]
        exact h.tail
    · intro f hf
      rcases List.mem_append.mp hf with hf | hf
      · obtain ⟨body, hbody, rfl⟩ := List.mem_map.mp hf
        simp [Frame.bytes]
      · rw [List.mem_singleton.mp hf]
        simpa [Frame.bytes] using htail
    · intro f hf
      rw [List.dropLast_concat] at hf
      obtain ⟨body, hbody, rfl⟩ := List.mem_map.mp hf
      rfl

theorem run_append (s₀ : GpsJsonlStream) (ops more : List Op) :
    s₀.run serde sha256 (ops ++ more) =
      more.foldl (Run.step serde sha256) (s₀.run serde sha256 ops) := List.foldl_append

/-- Chunks that the count of the bytes has room for: every call succeeds, and the stream goes on. -/
theorem run_pushes (serde : SerdeJson) (sha256 : List UInt8 → Digest) {profile : FamilyProfile}
    {sourceId : String} {s₀ : GpsJsonlStream}
    (hnew : GpsJsonlStream.new profile sourceId = .ok s₀)
    (chunks : List (List UInt8 × Option Int64))
    (hroom : (chunks.map Prod.fst).flatten.length < 2 ^ 64) {run : Run}
    (hrun : s₀.run serde sha256 (chunks.map fun (bytes, arrivalUnixMs) =>
      .push bytes arrivalUnixMs) = run) :
    run.pushed = (chunks.map Prod.fst).flatten ∧ run.stream.finished = false ∧
      (∀ r ∈ run.results, r.2 = .ok ()) ∧ Reached serde sha256 s₀ run := by
  induction chunks using List.reverseRecOn generalizing run with
  | nil =>
    subst hrun
    refine ⟨rfl, ?_, by simp [GpsJsonlStream.run], reached_new serde sha256 hnew⟩
    rw [GpsJsonlStream.run, new_eq hnew]
    rfl
  | append_singleton chunks chunk ih =>
    obtain ⟨bytes, arrivalUnixMs⟩ := chunk
    rw [List.map_append, List.flatten_append, List.length_append] at hroom
    rw [List.map_append, run_append] at hrun
    obtain ⟨hpushed, hfinished, hresults, hreached⟩ := ih (by omega) rfl
    generalize s₀.run serde sha256 _ = before at hrun hpushed hfinished hresults hreached
    cases hreached with
    | failed _ _ _ finished => simp [finished] at hfinished
    | closed _ _ _ finished => simp [finished] at hfinished
    | live framed holds account finished =>
      have hfits : before.pushed.length + bytes.length < 2 ^ 64 := by
        simpa [hpushed] using hroom
      obtain ⟨hresult, hstep, hlive, hreached⟩ :=
        account.step_push framed holds finished hfits arrivalUnixMs
      subst hrun
      refine ⟨?_, hlive, ?_, hreached⟩
      · simpa [hpushed] using hstep
      · intro r hr
        rcases List.mem_append.mp hr with hr | hr
        · exact hresults r hr
        · rw [List.mem_singleton.mp hr]
          exact hresult

variable (serde sha256) in
/-- What a stream makes of a byte string, in whatever chunks: frames that are its own, their
events but for the arrivals and the snapshots of the bytes, and the counts behind them. -/
def ChunkingInvariant (s₀ : GpsJsonlStream) (bytes : List UInt8) : Prop :=
  ∃ frames events counts, Frames bytes frames ∧
    ∀ chunks : List (List UInt8 × Option Int64), (chunks.map Prod.fst).flatten = bytes →
      (∀ r ∈ (s₀.run serde sha256 (chunkOps chunks)).results, r.2 = .ok ()) ∧
      (s₀.run serde sha256 (chunkOps chunks)).events.map StreamEvent.common = events ∧
      (s₀.run serde sha256 (chunkOps chunks)).stream.counts = counts ∧
      List.Forall₂ (Makes serde sha256 s₀.profile) frames
        (s₀.run serde sha256 (chunkOps chunks)).events

/-- **However the bytes come.** -/
theorem chunkingInvariant {profile : FamilyProfile} {sourceId : String} {s₀ : GpsJsonlStream}
    (hnew : GpsJsonlStream.new profile sourceId = .ok s₀) {bytes : List UInt8}
    (hroom : bytes.length < 2 ^ 64) : ChunkingInvariant serde sha256 s₀ bytes := by
  obtain ⟨bodies, tail, hframed⟩ := exists_framed (0x0A : UInt8) bytes
  refine ⟨ended bodies ++ openFrame tail,
    commonEvents serde sha256 s₀.profile s₀.sourceId {} (ended bodies ++ openFrame tail),
    (countsAfter serde sha256 s₀.profile {}
      (ended bodies ++ openFrame tail)).withBytes bytes.length,
    frames_of_framed hframed, fun chunks hchunks => ?_⟩
  obtain ⟨hpushed, hfinished, hresults, hreached⟩ :=
    run_pushes serde sha256 hnew chunks (hchunks ▸ hroom) rfl
  rw [chunkOps, run_append]
  generalize s₀.run serde sha256 _ = before at *
  cases hreached with
  | failed _ _ _ finished => simp [finished] at hfinished
  | closed _ _ _ finished => simp [finished] at hfinished
  | live framed holds account finished =>
    rw [hpushed, hchunks] at framed
    obtain ⟨rfl, rfl⟩ := hframed.unique framed
    obtain ⟨hresult, haccount, -, -⟩ :=
      account.step_finish (by rw [hpushed, hchunks]; exact framed) holds finished
    refine ⟨?_, haccount.events, ?_, haccount.makes⟩
    · intro r hr
      rcases List.mem_append.mp hr with hr | hr
      · exact hresults r hr
      · rw [List.mem_singleton.mp hr]
        exact hresult
    · have hcounts := haccount.counts
      rw [Run.pushed_step_finish, hpushed, hchunks] at hcounts
      exact hcounts

/-! ## 7. The end of a stream -/

theorem emitFrame_finished {s s' : GpsJsonlStream} {terminated : Bool} {e : StreamEvent}
    (h : s.emitFrame serde sha256 terminated = .ok (s', e)) : s'.finished = s.finished := by
  unfold GpsJsonlStream.emitFrame at h
  obtain ⟨frames, -, h⟩ := bind_eq_ok.mp h
  obtain ⟨counts, -, h⟩ := bind_eq_ok.mp h
  have hs : _ = s' := congrArg Prod.fst (Except.ok.inj h)
  rw [← hs]

/-- A call that fails leaves the stream finished, as `finish` does.  So at most one failure other
than a refusal is ever reported. -/
theorem call_finishes {s : GpsJsonlStream} {op : Op}
    (h : op = .finish ∨ (s.call serde sha256 op).result ≠ .ok ()) :
    (s.call serde sha256 op).stream.finished = true := by
  by_cases hfinished : s.finished = true
  · rw [call_finished hfinished]
    exact hfinished
  cases op with
  | push bytes arrivalUnixMs =>
    rcases h with h | h
    · cases h
    · change (s.push serde sha256 bytes arrivalUnixMs).result ≠ _ at h
      change (s.push serde sha256 bytes arrivalUnixMs).stream.finished = true
      unfold GpsJsonlStream.push at h ⊢
      rw [if_neg hfinished] at h ⊢
      cases hresult : (s.pushInner serde sha256 bytes arrivalUnixMs).result with
      | ok _ => simp [hresult] at h
      | error _ =>
        dsimp only
        rw [hresult]
  | finish =>
    change (s.finish serde sha256).stream.finished = true
    unfold GpsJsonlStream.finish
    rw [if_neg hfinished]
    dsimp only
    split
    · split
      · rfl
      · next hemit => exact emitFrame_finished hemit
    · rfl

theorem run_step (s₀ : GpsJsonlStream) (ops : List Op) (op : Op) :
    s₀.run serde sha256 (ops ++ [op]) = (s₀.run serde sha256 ops).step serde sha256 op :=
  run_append s₀ ops [op]

theorem foldl_step_finished (serde : SerdeJson) (sha256 : List UInt8 → Digest) {run : Run}
    (h : run.stream.finished = true) (ops : List Op) :
    (ops.foldl (Run.step serde sha256) run).stream = run.stream ∧
      (ops.foldl (Run.step serde sha256) run).events = run.events := by
  induction ops generalizing run with
  | nil => exact ⟨rfl, rfl⟩
  | cons op ops ih =>
    have hstep := Run.step_eq op (@call_finished serde sha256 _ h op)
    obtain ⟨hstream, hevents⟩ := @ih (run.step serde sha256 op) (by rw [hstep]; exact h)
    rw [List.foldl_cons, hstream, hevents, hstep, List.append_nil]
    exact ⟨rfl, rfl⟩

/-- A chunk is refused when the stream is finished or there is no room to count its bytes, and then
only. -/
theorem Reached.push_result {s₀ : GpsJsonlStream} {run : Run} (h : Reached serde sha256 s₀ run)
    (bytes : List UInt8) (arrivalUnixMs : Option Int64) :
    (run.stream.push serde sha256 bytes arrivalUnixMs).result =
      if run.stream.finished then .error (streamError "stream already finished")
      else if run.pushed.length + bytes.length < 2 ^ 64 then .ok ()
      else .error (streamError "stream counter overflow") := by
  cases h with
  | live framed holds account finished =>
    rw [if_neg (by simp [finished])]
    split
    · next hroom => exact (account.step_push framed holds finished hroom arrivalUnixMs).1
    · next hroom =>
      have hadd : add run.stream.counts.bytesReceived bytes.length =
          .error (streamError "stream counter overflow") := by
        rw [account.bytesReceived, add, checkedU64, if_neg hroom]
      rw [push_overflow finished hadd arrivalUnixMs]
  | failed framed holds account finished =>
    have hcall := @call_finished serde sha256 _ finished (.push bytes arrivalUnixMs)
    rw [if_pos finished]
    exact congrArg Call.result hcall
  | closed framed holds account finished =>
    have hcall := @call_finished serde sha256 _ finished (.push bytes arrivalUnixMs)
    rw [if_pos finished]
    exact congrArg Call.result hcall

/-! ## 8. Streams -/

/-- **A stream of decoded GPS records.**  What it makes of a byte string does not depend on the
chunks; at every point of every run its counters are the exact tally of its events and its buffer
is bounded; and it refuses every chunk after its end or a failure, and any that its counters have
no room for. -/
theorem stream_chunks {profile : FamilyProfile} {sourceId : String} {s₀ : GpsJsonlStream}
    (hnew : GpsJsonlStream.new profile sourceId = .ok s₀) :
    (∀ bytes : List UInt8, bytes.length < 2 ^ 64 → ChunkingInvariant serde sha256 s₀ bytes) ∧
      (∀ ops, StreamKept (s₀.run serde sha256 ops)) ∧
      (∀ ops bytes arrivalUnixMs,
        ((s₀.run serde sha256 ops).stream.push serde sha256 bytes arrivalUnixMs).result =
          if (s₀.run serde sha256 ops).stream.finished then
            .error (streamError "stream already finished")
          else if (s₀.run serde sha256 ops).pushed.length + bytes.length < 2 ^ 64 then .ok ()
          else .error (streamError "stream counter overflow")) ∧
      ∀ before op after,
        op = .finish ∨
          ((s₀.run serde sha256 before).stream.call serde sha256 op).result ≠ .ok () →
        ∀ later, (s₀.run serde sha256 (before ++ op :: after)).stream.call serde sha256 later =
          ⟨(s₀.run serde sha256 (before ++ [op])).stream, [],
            .error (streamError "stream already finished")⟩ := by
  refine ⟨fun bytes hroom => chunkingInvariant hnew hroom, fun ops => (reached_run hnew ops).kept,
    fun ops => (reached_run hnew ops).push_result, fun before op after h later => ?_⟩
  have hfinished : (s₀.run serde sha256 (before ++ [op])).stream.finished = true := by
    rw [run_step]
    exact call_finishes h
  obtain ⟨hstream, -⟩ := foldl_step_finished serde sha256 hfinished after
  rw [← run_append, List.append_assoc, List.singleton_append] at hstream
  rw [hstream]
  exact call_finished hfinished later

def exampleProfile : FamilyProfile where
  profileId := "fc"
  version := "1"
  family := .ugv
  sourceRole := .fc
  format := formatId
  extensions := ["jsonl"]
  fields := ⟨"TimeUS", [], [], [], [], []⟩
  fieldUnits := .ofList declaredUnits
  channels := []
  expectations := []
  defaultClockBasis := .unknown
  declaredPlatformDomain := none
  declaredSender := none
  declaredClockRate := none
  origin := "fc.toml"

/-- A fix as it is decoded from a log, and its text. -/
def gpsRecord : JsonValue :=
  .object [
    ("data", .object [("Lat", .number (.posInt 35)), ("TimeUS", .number (.posInt 38000000))]),
    ("meta", .object [("type", .string "GPS")])]

def gpsText : String := r#"{"meta":{"type":"GPS"},"data":{"TimeUS":38000000,"Lat":35}}"#

/-- A library that reads this text only. -/
def gpsJson : SerdeJson where
  fromSlice bytes := if bytes = utf8 gpsText then some gpsRecord else none
  fromStr s := if s = gpsText then some gpsRecord else none
  display _ := ""

def gpsFrame : List UInt8 := utf8 gpsText ++ [0x0A]

def gpsObservation : Observation :=
  { observation (fun _ => .replicate 32 0) exampleProfile 38000 .gpsEkf
      [("GPS.Lat", .i64 35), ("GPS.TimeUS", .i64 38000000)] false with
    tBootUs := some 38000000
    clockBasis := .bootRelative
    timeConfidence := defaultTimeConfidence .bootRelative }

/-- The frame in two chunks, cut within the text, is one observation, and no other cut makes
another. -/
theorem stream_chunks_example : ∃ s₀, GpsJsonlStream.new exampleProfile "fc-1" = .ok s₀ ∧
    (s₀.run gpsJson (fun _ => .replicate 32 0)
      [.push (gpsFrame.take 20) (some 1), .push (gpsFrame.drop 20) (some 2)]).events.map
        StreamEvent.result = [.observation gpsObservation] ∧
    ChunkingInvariant gpsJson (fun _ => .replicate 32 0) s₀ gpsFrame := by
  have hnew : GpsJsonlStream.new exampleProfile "fc-1" =
      .ok { profile := exampleProfile, sourceId := "fc-1" } := by decide
  exact ⟨_, hnew, by decide +kernel, (stream_chunks hnew).1 _ (by decide +kernel)⟩

end Musubi.Reference.Mavlog
