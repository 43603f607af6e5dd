/-
# The run over all steps

`reference-fanout/src/lib.rs`, `run`: every step is fanned out to four sinks, and what is withheld
goes to one human lane.  The lane has room for every step and every sink, so it never has to give
up an entry (`push_of_room`); the invariant of the loop (`Accounted`) says which entries it holds.

The capacity is computed before the loop, from the number of steps and the number of sinks, and an
entry is pushed at most once for each sink of a step.  So after any prefix of the steps there is
room for what the rest can push, and a push into a lane with room appends and evicts nothing.
Nobody acknowledges an entry during the run, so what has been pushed is pending at its end.
-/
import Musubi.Fanout.Csvsink
import Musubi.Northbound.FanOut
import Musubi.Northbound.HumanLane
import Musubi.Northbound.NvgPublisher

namespace Musubi.Fanout

open Northbound

/-! ## 1. `run` -/

structure StepReport where
  seq : ℕ
  markerId : String
  kind : StepKind
  report : FanOutReport
deriving DecidableEq

structure FanOutRun where
  steps : List StepReport
  humanLane : HumanLane
  published : ℕ
  withheld : ℕ
  failed : ℕ
  evicted : ℕ

def sinkCount : ℕ := 4

/-- The sinks of one step; the second CSV sink belongs to the step. -/
def publishers (step : DemoStep) : List NorthboundPublisher :=
  [cotPublisher .recommended, nvgPublisher, eventCsvPublisher step, legacyPositionCsvPublisher]

/-- One entry of a report's human lane. -/
def keepEntry (run : FanOutRun) (entry : String × EvidenceEnvelope) : FanOutRun :=
  let (gone, lane) := run.humanLane.push entry.2 entry.1
  { run with
    humanLane := lane
    evicted := run.evicted + if gone.isSome then 1 else 0 }

/-- One iteration. -/
def runStep (run : FanOutRun) (step : DemoStep) : FanOutRun :=
  let report := fanOut step.envelope (publishers step)
  let run := { run with
    published := run.published + report.publishedCount
    withheld := run.withheld + report.withheldCount
    failed := run.failed + report.failedCount }
  let run := report.humanLane.foldl keepEntry run
  { run with steps := run.steps ++ [⟨step.seq, step.markerId, step.kind, report⟩] }

/-- The start time is not used. -/
def run (steps : List DemoStep) (_t0Ms : Int64) : FanOutRun :=
  steps.foldl runStep
    { steps := []
      humanLane := .new (max steps.length 1 * sinkCount)
      published := 0
      withheld := 0
      failed := 0
      evicted := 0 }

/-! ## 2. One step -/

/-- What is reported of a step, whatever came before it. -/
def stepReport (step : DemoStep) : StepReport :=
  ⟨step.seq, step.markerId, step.kind, fanOut step.envelope (publishers step)⟩

/-- What is withheld of a list of steps, in order. -/
def withheldEntries (steps : List DemoStep) : List (String × EvidenceEnvelope) :=
  steps.flatMap fun step => (fanOut step.envelope (publishers step)).humanLane

/-- The lane, as dialects with envelopes. -/
def laneContents (lane : HumanLane) : List (String × EvidenceEnvelope) :=
  lane.entries.map fun e => (e.dialect, e.envelope)

/-- **The account of a prefix of the steps.** The reports are those of the steps, the three
counters add up to the sinks, and the lane holds what was withheld, in order, with nothing
acknowledged and nothing evicted. -/
structure Accounted (capacity : ℕ) (done : List DemoStep) (run : FanOutRun) : Prop where
  reports_eq : run.steps = done.map stepReport
  counted : run.published + run.withheld + run.failed = sinkCount * done.length
  withheld_eq : run.withheld = (withheldEntries done).length
  kept : laneContents run.humanLane = withheldEntries done
  pending : ∀ e ∈ run.humanLane.entries, e.acked = false
  capacity_eq : run.humanLane.capacity = capacity
  none_evicted : run.evicted = 0 ∧ run.humanLane.evictedTotal = 0

theorem withheldEntries_append (done : List DemoStep) (step : DemoStep) :
    withheldEntries (done ++ [step]) =
      withheldEntries done ++ (fanOut step.envelope (publishers step)).humanLane := by
  rw [withheldEntries, List.flatMap_append, List.flatMap_singleton]
  rfl

/-- No step withholds more than there are sinks. -/
theorem length_withheldEntries_le (steps : List DemoStep) :
    (withheldEntries steps).length ≤ sinkCount * steps.length := by
  induction steps with
  | nil => exact Nat.le_refl _
  | cons step steps ih =>
    have hone := length_humanLane_le step.envelope (publishers step)
    have hfour : (publishers step).length = sinkCount := rfl
    rw [withheldEntries, List.flatMap_cons, List.length_append, List.length_cons, Nat.mul_succ]
    unfold withheldEntries at ih
    omega

/-- Entries go to the end of a lane that has room for them. -/
theorem foldl_keepEntry (entries : List (String × EvidenceEnvelope)) : ∀ (run : FanOutRun),
    run.humanLane.entries.length + entries.length ≤ run.humanLane.capacity →
    (∀ e ∈ run.humanLane.entries, e.acked = false) →
    ∃ lane : HumanLane, entries.foldl keepEntry run = { run with humanLane := lane } ∧
      laneContents lane = laneContents run.humanLane ++ entries ∧
      (∀ e ∈ lane.entries, e.acked = false) ∧ lane.capacity = run.humanLane.capacity ∧
      lane.evictedTotal = run.humanLane.evictedTotal := by
  induction entries with
  | nil =>
    intro run _ hpending
    exact ⟨run.humanLane, rfl, (List.append_nil _).symm, hpending, rfl, rfl⟩
  | cons entry entries ih =>
    intro run hroom hpending
    rw [List.length_cons] at hroom
    have hpush := run.humanLane.push_of_room entry.2 entry.1 (by omega)
    have hkeep : keepEntry run entry =
        { run with humanLane := (run.humanLane.push entry.2 entry.1).2 } := by
      simp [keepEntry, hpush]
    obtain ⟨lane, hfold, hcontents, hacked, hcapacity, hevicted⟩ :=
      ih (keepEntry run entry) (by simp [hkeep, hpush]; omega) (by
        simp only [hkeep, hpush, List.forall_mem_append, List.forall_mem_singleton]
        exact ⟨hpending, rfl⟩)
    rw [hkeep, hpush] at hfold hcontents hcapacity hevicted
    refine ⟨lane, ?_, ?_, hacked, hcapacity, hevicted⟩
    · rw [List.foldl_cons, hkeep, hpush]
      exact hfold
    · rw [hcontents]
      simp [laneContents, HumanLane.newEntry]

/-! ## 3. All steps -/

theorem Accounted.runStep {capacity : ℕ} {done : List DemoStep} {run : FanOutRun}
    (h : Accounted capacity done run) (step : DemoStep)
    (hroom : sinkCount * (done.length + 1) ≤ capacity) :
    Accounted capacity (done ++ [step]) (runStep run step) := by
  have hcounts := counts_fanOut step.envelope (publishers step)
  have hwithheld := length_humanLane step.envelope (publishers step)
  have hle := length_withheldEntries_le (done ++ [step])
  have hfour : (publishers step).length = sinkCount := rfl
  have hkept : run.humanLane.entries.length = (withheldEntries done).length := by
    rw [← h.kept, laneContents, List.length_map]
  have hcounted := h.counted
  have hwas := h.withheld_eq
  rw [withheldEntries_append, List.length_append, List.length_append, List.length_singleton]
    at hle
  obtain ⟨lane, hfold, hcontents, hacked, hcapacity, hevicted⟩ :=
    foldl_keepEntry (fanOut step.envelope (publishers step)).humanLane
      { run with
        published := run.published + (fanOut step.envelope (publishers step)).publishedCount
        withheld := run.withheld + (fanOut step.envelope (publishers step)).withheldCount
        failed := run.failed + (fanOut step.envelope (publishers step)).failedCount }
      (by simp only [hkept, h.capacity_eq]; omega) h.pending
  unfold Fanout.runStep
  simp only [hfold]
  constructor
  case reports_eq =>
    rw [h.reports_eq, List.map_append]
    rfl
  case counted =>
    simp only [List.length_append, List.length_singleton, Nat.mul_succ]
    omega
  case withheld_eq =>
    simp only [withheldEntries_append, List.length_append]
    omega
  case kept => rw [hcontents, h.kept, withheldEntries_append]
  case pending => exact hacked
  case capacity_eq => rw [hcapacity, h.capacity_eq]
  case none_evicted => exact ⟨h.none_evicted.1, hevicted.trans h.none_evicted.2⟩

/-- The account of the whole run, from any account of what came before. -/
theorem Accounted.foldl_runStep {capacity : ℕ} (steps : List DemoStep) :
    ∀ {done : List DemoStep} {run : FanOutRun}, Accounted capacity done run →
      sinkCount * (done.length + steps.length) ≤ capacity →
      Accounted capacity (done ++ steps) (steps.foldl Fanout.runStep run) := by
  induction steps with
  | nil =>
    intro done run h _
    rw [List.append_nil]
    exact h
  | cons step steps ih =>
    intro done run h hroom
    have hmono : sinkCount * (done.length + 1) ≤
        sinkCount * (done.length + (step :: steps).length) :=
      Nat.mul_le_mul_left _ (by rw [List.length_cons]; omega)
    have hstep := h.runStep step (hmono.trans hroom)
    rw [List.foldl_cons, ← List.append_cons done step steps |>.symm]
    refine ih hstep ?_
    rw [List.length_append, List.length_singleton, Nat.add_assoc, Nat.add_comm 1]
    exact hroom

theorem accounted_run (steps : List DemoStep) (t0Ms : Int64) :
    Accounted (max steps.length 1 * sinkCount) steps (run steps t0Ms) := by
  have hcapacity : max (max steps.length 1 * sinkCount) 1 = max steps.length 1 * sinkCount := by
    unfold sinkCount
    omega
  have hstart : Accounted (max steps.length 1 * sinkCount) []
      ⟨[], .new (max steps.length 1 * sinkCount), 0, 0, 0, 0⟩ := by
    constructor
    case capacity_eq => exact hcapacity
    case none_evicted => exact ⟨rfl, rfl⟩
    case pending => exact List.forall_mem_nil _
    all_goals rfl
  refine hstart.foldl_runStep steps ?_
  unfold sinkCount
  simp only [List.length_nil]
  omega

/-- **Nothing is lost in a run.** There is one report a step, in order, each the fan-out of its
own envelope; every sink of every step is counted once; nothing is evicted; and what is pending in
the lane is what was withheld, in order.  The steps are an arbitrary list, however long, with
envelopes and marks as they like; that the lane is large enough is a part of what is proved. -/
theorem run_accounting (steps : List DemoStep) (t0Ms : Int64) :
    (run steps t0Ms).steps = steps.map stepReport ∧
      (run steps t0Ms).published + (run steps t0Ms).withheld + (run steps t0Ms).failed =
        4 * steps.length ∧
      (run steps t0Ms).evicted = 0 ∧ (run steps t0Ms).humanLane.evictedTotal = 0 ∧
      (run steps t0Ms).humanLane.pending.map (fun e => (e.dialect, e.envelope)) =
        steps.flatMap (fun step => ((stepReport step).report.outcomes.filter
          SinkOutcome.isWithheld).map fun o => (o.dialect, step.envelope)) ∧
      (run steps t0Ms).humanLane.pendingLen =
        ((run steps t0Ms).steps.flatMap fun s => s.report.outcomes).countP
          SinkOutcome.isWithheld ∧
      (run steps t0Ms).humanLane.pendingLen = (run steps t0Ms).withheld := by
  have h := accounted_run steps t0Ms
  have hall : (run steps t0Ms).humanLane.pending = (run steps t0Ms).humanLane.entries := by
    refine List.filter_eq_self.mpr fun e he => ?_
    rw [h.pending e he]
    rfl
  have hlane : withheldEntries steps = steps.flatMap fun step =>
      ((stepReport step).report.outcomes.filter SinkOutcome.isWithheld).map
        fun o => (o.dialect, step.envelope) := by
    unfold withheldEntries stepReport
    simp only [humanLane_fanOut]
  have hlen : (run steps t0Ms).humanLane.pendingLen = (withheldEntries steps).length := by
    rw [HumanLane.pendingLen, hall, ← h.kept, laneContents, List.length_map]
  refine ⟨h.reports_eq, h.counted, h.none_evicted.1, h.none_evicted.2, ?_, ?_, ?_⟩
  · rw [hall, ← hlane]
    exact h.kept
  · rw [hlen, hlane, h.reports_eq]
    simp [List.countP_eq_length_filter, List.flatMap_map, List.filter_flatMap,
      List.length_flatMap]
  · rw [hlen, h.withheld_eq]

end Musubi.Fanout
