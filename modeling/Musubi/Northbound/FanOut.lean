/-
# The fan-out of one envelope to many sinks

`fan_out` of `fanout.rs`.  The loop runs over the publishers and extends three lists, each on its
own branches.  What the model adds is one GHOST list, `handed`: the publishers whose `publish` was
called.  Nothing reads it; it is what "never handed to a sink" is about.

A publisher is its dialect, its capabilities and a function that publishes or fails.  Nothing is
assumed of that function, so a sink may fail on every envelope, or on one, and a sink that is
withheld from is not even asked.

The shape of the argument is that one iteration appends and never looks back: a sink contributes a
fixed outcome (`sinkOutcome`), the ledger and the human lane are two ways of reading the outcomes,
and the loop is a `map` (`fanOutLoop_eq`).  Isolation of the sinks from each other is then the
distributivity of `map` over `++`.
-/
import Mathlib.Data.List.Basic
import Musubi.Northbound.Publisher

namespace Musubi.Northbound

/-! ## 1. Outcomes and reports -/

inductive TrustField
  | markStatus
  | reasonCode
  | confidence
  | provenance
  | timestamps
deriving DecidableEq, Repr

inductive SinkOutcome
  | published (dialect : String) (bytes : List UInt8)
  | publishedWithDowngrade (dialect : String) (bytes : List UInt8) (carried : List TrustField)
  | withheld (dialect : String) (mark : Mark) (wouldDrop : List TrustField)
  | failed (dialect : String) (error : PublishError)
deriving DecidableEq

namespace SinkOutcome

def isWithheld : SinkOutcome → Bool
  | withheld .. => true
  | _ => false

def isFailed : SinkOutcome → Bool
  | failed .. => true
  | _ => false

def bytes : SinkOutcome → Option (List UInt8)
  | published _ bytes => some bytes
  | publishedWithDowngrade _ bytes _ => some bytes
  | withheld .. => none
  | failed .. => none

def dialect : SinkOutcome → String
  | published dialect _ => dialect
  | publishedWithDowngrade dialect _ _ => dialect
  | withheld dialect _ _ => dialect
  | failed dialect _ => dialect

end SinkOutcome

structure FanOutReport where
  outcomes : List SinkOutcome
  markLedger : List (String × Mark)
  humanLane : List (String × EvidenceEnvelope)
deriving DecidableEq

namespace FanOutReport

def publishedCount (r : FanOutReport) : ℕ :=
  (r.outcomes.filter fun o => !o.isWithheld && !o.isFailed).length

def withheldCount (r : FanOutReport) : ℕ := (r.outcomes.filter SinkOutcome.isWithheld).length

def failedCount (r : FanOutReport) : ℕ := (r.outcomes.filter SinkOutcome.isFailed).length

def outcomeFor (r : FanOutReport) (dialect : String) : Option SinkOutcome :=
  r.outcomes.find? fun o => o.dialect = dialect

end FanOutReport

/-! ## 2. `fan_out` -/

/-- The trust fields a sink of this capability would lose. -/
def capabilityDropSet (envelope : EvidenceEnvelope) (capability : DialectCapability) :
    List TrustField :=
  if capability.carriesMarkStatus then []
  else
    [.markStatus] ++
    (if envelope.claim.mark.reasonCode.isEmpty then [] else [.reasonCode]) ++
    [.confidence] ++
    (if envelope.claim.mark.provenance.isEmpty then [] else [.provenance])

def isNonOk (mark : Mark) : Bool := mark.status ≠ .ok

/-- The lists of the loop, and the ghost list of the publishers that were called.  An iteration
only appends to any of the four. -/
structure FanOutState where
  outcomes : List SinkOutcome
  markLedger : List (String × Mark)
  humanLane : List (String × EvidenceEnvelope)
  handed : List NorthboundPublisher

/-- `publisher.publish(envelope)`, on the record. -/
def callPublish (envelope : EvidenceEnvelope) (publisher : NorthboundPublisher)
    (s : FanOutState) : Except PublishError (List UInt8) × FanOutState :=
  (publisher.publish envelope, { s with handed := s.handed ++ [publisher] })

/-- The mark of an envelope withheld from a sink. -/
def withheldMark (dialect : String) (mark : Mark) : Mark where
  status := .withheld
  reasonCode := "sink-cannot-carry-mark:" ++ dialect
  provenance := ["withheld-from:" ++ dialect, "source-status:" ++ markSummary mark]

/-- What a sink with a native annotation field carries. -/
def carriedFields : List TrustField := [.markStatus, .reasonCode, .confidence, .provenance]

/-- One iteration. -/
def fanOutStep (envelope : EvidenceEnvelope) (s : FanOutState) (publisher : NorthboundPublisher) :
    FanOutState :=
  let mark := envelope.claim.mark
  let dialect := publisher.dialect
  let cap := publisher.capability
  let dropped := capabilityDropSet envelope cap
  if cap.carriesMarkStatus then
    match callPublish envelope publisher s with
    | (.error error, s) => { s with outcomes := s.outcomes ++ [.failed dialect error] }
    | (.ok bytes, s) =>
      let s := { s with markLedger := s.markLedger ++ [(dialect, mark)] }
      if cap.markViaNativeAnnotation then
        { s with
          outcomes := s.outcomes ++ [.publishedWithDowngrade dialect bytes carriedFields] }
      else
        { s with outcomes := s.outcomes ++ [.published dialect bytes] }
  else if isNonOk mark then
    { s with
      markLedger := s.markLedger ++ [(dialect, withheldMark dialect mark)]
      humanLane := s.humanLane ++ [(dialect, envelope)]
      outcomes := s.outcomes ++ [.withheld dialect (withheldMark dialect mark) dropped] }
  else
    match callPublish envelope publisher s with
    | (.ok bytes, s) =>
      { s with
        markLedger := s.markLedger ++ [(dialect, mark)]
        outcomes := s.outcomes ++ [.published dialect bytes] }
    | (.error error, s) => { s with outcomes := s.outcomes ++ [.failed dialect error] }

def fanOutLoop (envelope : EvidenceEnvelope) (publishers : List NorthboundPublisher) :
    FanOutState :=
  publishers.foldl (fanOutStep envelope) ⟨[], [], [], []⟩

def fanOut (envelope : EvidenceEnvelope) (publishers : List NorthboundPublisher) :
    FanOutReport :=
  let s := fanOutLoop envelope publishers
  { outcomes := s.outcomes, markLedger := s.markLedger, humanLane := s.humanLane }

/-- The publishers that were handed the envelope. -/
def handedTo (envelope : EvidenceEnvelope) (publishers : List NorthboundPublisher) :
    List NorthboundPublisher :=
  (fanOutLoop envelope publishers).handed

/-! ## 3. One sink -/

variable (envelope : EvidenceEnvelope)

/-- What a sink contributes, whatever the other sinks do. -/
def sinkOutcome (publisher : NorthboundPublisher) : SinkOutcome :=
  let cap := publisher.capability
  let mark := envelope.claim.mark
  if !cap.carriesMarkStatus && isNonOk mark then
    .withheld publisher.dialect (withheldMark publisher.dialect mark)
      (capabilityDropSet envelope cap)
  else
    match publisher.publish envelope with
    | .error error => .failed publisher.dialect error
    | .ok bytes =>
      if cap.carriesMarkStatus && cap.markViaNativeAnnotation then
        .publishedWithDowngrade publisher.dialect bytes carriedFields
      else .published publisher.dialect bytes

/-- The ledger entry of an outcome: its own mark when withheld, the envelope's when published,
none when failed. -/
def ledgerEntry : SinkOutcome → Option (String × Mark)
  | .published dialect _ => some (dialect, envelope.claim.mark)
  | .publishedWithDowngrade dialect _ _ => some (dialect, envelope.claim.mark)
  | .withheld dialect mark _ => some (dialect, mark)
  | .failed _ _ => none

/-- The human-lane entry of an outcome: the envelope, when withheld. -/
def laneEntry : SinkOutcome → Option (String × EvidenceEnvelope)
  | .withheld dialect _ _ => some (dialect, envelope)
  | _ => none

/-- The sink is one the envelope may be handed to. -/
def mayHand (publisher : NorthboundPublisher) : Bool :=
  publisher.capability.carriesMarkStatus || !isNonOk envelope.claim.mark

theorem sinkOutcome_dialect (publisher : NorthboundPublisher) :
    (sinkOutcome envelope publisher).dialect = publisher.dialect := by
  simp only [sinkOutcome]
  split
  · rfl
  · split
    · rfl
    · split <;> rfl

/-- **One iteration appends** the sink's outcome, the entries read off it, and the sink itself to
those called when the envelope may be handed to it.  The branches of the code are gone through
here and nowhere else. -/
theorem fanOutStep_eq (s : FanOutState) (publisher : NorthboundPublisher) :
    fanOutStep envelope s publisher =
      { outcomes := s.outcomes ++ [sinkOutcome envelope publisher]
        markLedger := s.markLedger ++
          [sinkOutcome envelope publisher].filterMap (ledgerEntry envelope)
        humanLane := s.humanLane ++
          [sinkOutcome envelope publisher].filterMap (laneEntry envelope)
        handed := s.handed ++ [publisher].filter (mayHand envelope) } := by
  cases hcap : publisher.capability.carriesMarkStatus with
  | true =>
    cases hpub : publisher.publish envelope with
    | error error =>
      simp [fanOutStep, sinkOutcome, callPublish, hcap, hpub, ledgerEntry, laneEntry, mayHand]
    | ok bytes =>
      cases hann : publisher.capability.markViaNativeAnnotation <;>
        simp [fanOutStep, sinkOutcome, callPublish, hcap, hpub, hann, ledgerEntry, laneEntry,
          mayHand]
  | false =>
    cases hmark : isNonOk envelope.claim.mark with
    | true =>
      simp [fanOutStep, sinkOutcome, hcap, hmark, ledgerEntry, laneEntry, mayHand]
    | false =>
      cases hpub : publisher.publish envelope <;>
        simp [fanOutStep, sinkOutcome, callPublish, hcap, hmark, hpub, ledgerEntry, laneEntry,
          mayHand]

/-! ## 4. All sinks -/

/-- The loop, from any state. -/
theorem foldl_fanOutStep (publishers : List NorthboundPublisher) (s : FanOutState) :
    publishers.foldl (fanOutStep envelope) s =
      { outcomes := s.outcomes ++ publishers.map (sinkOutcome envelope)
        markLedger := s.markLedger ++
          (publishers.map (sinkOutcome envelope)).filterMap (ledgerEntry envelope)
        humanLane := s.humanLane ++
          (publishers.map (sinkOutcome envelope)).filterMap (laneEntry envelope)
        handed := s.handed ++ publishers.filter (mayHand envelope) } := by
  induction publishers generalizing s with
  | nil => simp
  | cons publisher publishers ih =>
    rw [List.foldl_cons, ih, fanOutStep_eq]
    simp only [List.append_assoc, ← List.filterMap_append, ← List.filter_append,
      List.singleton_append, List.map_cons]

theorem fanOutLoop_eq (publishers : List NorthboundPublisher) :
    fanOutLoop envelope publishers =
      { outcomes := publishers.map (sinkOutcome envelope)
        markLedger := (publishers.map (sinkOutcome envelope)).filterMap (ledgerEntry envelope)
        humanLane := (publishers.map (sinkOutcome envelope)).filterMap (laneEntry envelope)
        handed := publishers.filter (mayHand envelope) } := by
  rw [fanOutLoop, foldl_fanOutStep]
  simp only [List.nil_append]

theorem SinkOutcome.isFailed_of_isWithheld {o : SinkOutcome} (h : o.isWithheld = true) :
    o.isFailed = false := by
  cases o <;> first | rfl | cases h

/-- Every outcome is published, withheld or failed, and only one of them. -/
theorem counts_add (outcomes : List SinkOutcome) :
    (outcomes.filter fun o => !o.isWithheld && !o.isFailed).length +
      (outcomes.filter SinkOutcome.isWithheld).length +
      (outcomes.filter SinkOutcome.isFailed).length = outcomes.length := by
  induction outcomes with
  | nil => rfl
  | cons o outcomes ih =>
    simp only [List.filter_cons, List.length_cons]
    cases hw : o.isWithheld with
    | true =>
      simp only [SinkOutcome.isFailed_of_isWithheld hw, Bool.not_true, Bool.false_and, if_true,
        Bool.false_eq_true, if_false, List.length_cons]
      omega
    | false =>
      cases hf : o.isFailed <;>
        simp only [Bool.not_true, Bool.not_false, Bool.and_true, Bool.and_false, if_true,
          Bool.false_eq_true, if_false, List.length_cons] <;>
        omega

/-- The ledger names the sinks that did not fail, in order. -/
theorem filterMap_ledgerEntry_fst (outcomes : List SinkOutcome) :
    (outcomes.filterMap (ledgerEntry envelope)).map Prod.fst =
      (outcomes.filter fun o => !o.isFailed).map SinkOutcome.dialect := by
  rw [List.map_filterMap, ← List.filterMap_eq_map, List.filterMap_filter]
  congr 1
  funext o
  cases o <;> rfl

/-- The human lane names the sinks that were withheld from, in order, with the envelope. -/
theorem filterMap_laneEntry (outcomes : List SinkOutcome) :
    outcomes.filterMap (laneEntry envelope) =
      (outcomes.filter SinkOutcome.isWithheld).map fun o => (o.dialect, envelope) := by
  rw [← List.filterMap_eq_map, List.filterMap_filter]
  congr 1
  funext o
  cases o <;> rfl

theorem counts_fanOut (publishers : List NorthboundPublisher) :
    (fanOut envelope publishers).publishedCount + (fanOut envelope publishers).withheldCount +
      (fanOut envelope publishers).failedCount = publishers.length := by
  simp only [fanOut, FanOutReport.publishedCount, FanOutReport.withheldCount,
    FanOutReport.failedCount, fanOutLoop_eq]
  rw [counts_add, List.length_map]

theorem humanLane_fanOut (publishers : List NorthboundPublisher) :
    (fanOut envelope publishers).humanLane =
      ((fanOut envelope publishers).outcomes.filter SinkOutcome.isWithheld).map
        fun o => (o.dialect, envelope) := by
  simp only [fanOut, fanOutLoop_eq]
  exact filterMap_laneEntry envelope _

theorem length_humanLane (publishers : List NorthboundPublisher) :
    (fanOut envelope publishers).humanLane.length =
      (fanOut envelope publishers).withheldCount := by
  rw [humanLane_fanOut, List.length_map, FanOutReport.withheldCount]

/-- No more is withheld than there are sinks. -/
theorem length_humanLane_le (publishers : List NorthboundPublisher) :
    (fanOut envelope publishers).humanLane.length ≤ publishers.length := by
  have hcounts := counts_fanOut envelope publishers
  rw [length_humanLane]
  omega

/-- **The account of a fan-out.** One outcome a publisher, in order, each one's own; every sink is
counted once; the ledger has an entry for each sink that did not fail and the human lane one for
each that was withheld from; a mark that is not OK is handed to no sink that cannot carry it; and
a list of sinks is served as its two halves are.  The publishers are arbitrary, two of them may
have one dialect, and the envelope is arbitrary.  The last conjunct is isolation in its strongest
form: what a sink comes to is what it comes to alone. -/
theorem fanOut_accounting (publishers publishers' : List NorthboundPublisher) :
    (fanOut envelope publishers).outcomes.map SinkOutcome.dialect =
        publishers.map NorthboundPublisher.dialect ∧
      (fanOut envelope publishers).publishedCount + (fanOut envelope publishers).withheldCount +
        (fanOut envelope publishers).failedCount = publishers.length ∧
      (fanOut envelope publishers).markLedger =
        (fanOut envelope publishers).outcomes.filterMap (ledgerEntry envelope) ∧
      (fanOut envelope publishers).markLedger.map Prod.fst =
        ((fanOut envelope publishers).outcomes.filter fun o => !o.isFailed).map
          SinkOutcome.dialect ∧
      (fanOut envelope publishers).humanLane =
        ((fanOut envelope publishers).outcomes.filter SinkOutcome.isWithheld).map
          (fun o => (o.dialect, envelope)) ∧
      (∀ publisher ∈ handedTo envelope publishers, envelope.claim.mark.status ≠ .ok →
        publisher.capability.carriesMarkStatus = true) ∧
      (fanOut envelope (publishers ++ publishers')).outcomes =
        (fanOut envelope publishers).outcomes ++ (fanOut envelope publishers').outcomes ∧
      (fanOut envelope publishers).outcomes =
        publishers.flatMap fun publisher => (fanOut envelope [publisher]).outcomes := by
  refine ⟨?_, counts_fanOut envelope publishers, ?_, ?_, humanLane_fanOut envelope publishers, ?_,
    ?_, ?_⟩
  all_goals simp only [fanOut, handedTo, fanOutLoop_eq]
  · rw [List.map_map]
    exact List.map_congr_left fun publisher _ => sinkOutcome_dialect envelope publisher
  · exact filterMap_ledgerEntry_fst envelope _
  · intro publisher hmem hstatus
    have hhand := (List.mem_filter.mp hmem).2
    simpa [mayHand, isNonOk, hstatus] using hhand
  · exact List.map_append
  · exact List.map_eq_flatMap

end Musubi.Northbound
