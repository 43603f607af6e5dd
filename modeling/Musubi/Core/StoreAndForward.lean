/-
# The store-and-forward buffer

`store_and_forward.rs`: the replay key, the buffer and its operations.  A `VecDeque` is the list
of its entries from front to back.  The `expect` in `push` and the ones inside `causal_sort` are
the `none`s of `push` and `drain`; section 4 shows that neither is reached.

The `usize` counters of the buffer -- what was drained, refused and evicted -- are natural
numbers.  Each of them is stepped by one for an entry that was pushed, or by the length of a queue
that was filled so, and it would take `2 ^ 64` pushes to bring one to its end; so the overflow of
a counter is not part of the model, and no result here says anything about a run of that length.

The buffer is a state machine (section 3): an operation is a push, a drain or a change of the
link, its output is what the source returns, and a run keeps both.  The two bounds are positive by
construction, as `with_capacity` raises a zero to one, and the structure carries it; so no later
module has to ask for it.

What is proved here is what one operation does, one lemma for each; what a run does is in
`Core.Accounting`, `Core.AntiReplay` and the modules about drains.
-/
import Musubi.Lib.BoundedQueue
import Musubi.Lib.Runs
import Musubi.Core.Canonical
import Musubi.Core.CausalSort

namespace Musubi.Core

open Lib

/-! ## 1. The replay key -/

def defaultCapacity : ℕ := 10000

def defaultReplayWindow : ℕ := 4096

/-- `b"musubi/replay-key/v1"`. -/
def replayKeyDomain : List UInt8 := utf8 "musubi/replay-key/v1"

/-- What the replay key hashes: the observation without its reception time and time
confidence, and the claim's identity. -/
def replayKeyBytes (envelope : EvidenceEnvelope) : List UInt8 :=
  let buf :=
    match envelope.observation with
    | .platformState ps =>
      let buf := pushStr (replayKeyDomain ++ [0x00]) ps.platformId
      let buf := pushOpt pushPosition buf ps.position
      let buf := pushOptStr buf ps.mode
      pushOptI64 buf ps.timestamps.observedAt
    | .hostStateObservation observation =>
      let buf := pushStr (replayKeyDomain ++ [0x01]) observation.sourceContractId
      let buf := pushStr buf observation.hostId
      let buf := extendU64 buf observation.sequence
      let buf := pushOptI64 buf observation.timestamps.observedAt
      let stable := { observation with
        timestamps := { observation.timestamps with receivedAt := 0, timeConfidence := ⟨0⟩ } }
      pushHostStateObservation buf stable
  pushStr buf envelope.claim.claimId

def replayKey (sha256 : List UInt8 → Digest) (envelope : EvidenceEnvelope) : Digest :=
  sha256 (replayKeyBytes envelope)

/-! ## 2. The buffer -/

inductive LinkState
  | up
  | down
deriving DecidableEq, Repr

inductive PushOutcome
  | accepted
  | acceptedWithEviction (evicted : BufferedEnvelope)
  | rejectedDuplicate
deriving DecidableEq

def PushOutcome.isEviction : PushOutcome → Bool
  | .acceptedWithEviction _ => true
  | _ => false

def PushOutcome.isDuplicate : PushOutcome → Bool
  | .rejectedDuplicate => true
  | _ => false

/-- The buffer: the link, the pending envelopes from the oldest on, the keys that it remembers,
and the three counters.  Both bounds are positive by construction. -/
structure StoreAndForwardBuffer where
  link : LinkState
  pending : List BufferedEnvelope
  drainedTotal : ℕ
  capacity : ℕ
  replayWindow : List Digest
  replayWindowCap : ℕ
  duplicatesRejected : ℕ
  evictedTotal : ℕ
  capacity_pos : 0 < capacity
  replayWindowCap_pos : 0 < replayWindowCap

namespace StoreAndForwardBuffer

def withCapacity (initial : LinkState) (capacity replayWindowCap : ℕ) :
    StoreAndForwardBuffer where
  link := initial
  pending := []
  drainedTotal := 0
  capacity := max capacity 1
  replayWindow := []
  replayWindowCap := max replayWindowCap 1
  duplicatesRejected := 0
  evictedTotal := 0
  capacity_pos := bound_pos capacity
  replayWindowCap_pos := bound_pos replayWindowCap

def new (initial : LinkState) : StoreAndForwardBuffer :=
  withCapacity initial defaultCapacity defaultReplayWindow

def setLink (b : StoreAndForwardBuffer) (state : LinkState) : StoreAndForwardBuffer :=
  { b with link := state }

def pendingLen (b : StoreAndForwardBuffer) : ℕ := b.pending.length

def rememberKey (b : StoreAndForwardBuffer) (key : Digest) : StoreAndForwardBuffer :=
  { b with replayWindow := pushBack b.replayWindowCap b.replayWindow key }

section RememberKey

variable (b : StoreAndForwardBuffer) (key : Digest)

@[simp] theorem rememberKey_pending : (b.rememberKey key).pending = b.pending := rfl
@[simp] theorem rememberKey_drainedTotal : (b.rememberKey key).drainedTotal = b.drainedTotal := rfl
@[simp] theorem rememberKey_capacity : (b.rememberKey key).capacity = b.capacity := rfl
@[simp] theorem rememberKey_cap : (b.rememberKey key).replayWindowCap = b.replayWindowCap := rfl
@[simp] theorem rememberKey_duplicatesRejected :
    (b.rememberKey key).duplicatesRejected = b.duplicatesRejected := rfl
@[simp] theorem rememberKey_evictedTotal : (b.rememberKey key).evictedTotal = b.evictedTotal := rfl
@[simp] theorem rememberKey_replayWindow :
    (b.rememberKey key).replayWindow = pushBack b.replayWindowCap b.replayWindow key := rfl

end RememberKey

variable (sha256 : List UInt8 → Digest)

def push (b : StoreAndForwardBuffer) (envelope : EvidenceEnvelope) (vc : VectorClock) :
    Option (PushOutcome × StoreAndForwardBuffer) :=
  let key := replayKey sha256 envelope
  if key ∈ b.replayWindow then
    some (.rejectedDuplicate, { b with duplicatesRejected := b.duplicatesRejected + 1 })
  else
    let b := b.rememberKey key
    let pending := b.pending ++ [{ envelope := envelope, vc := vc }]
    if b.capacity < pending.length then
      match pending with
      | [] => none
      | evicted :: rest =>
        some (.acceptedWithEviction evicted,
          { b with pending := rest, evictedTotal := b.evictedTotal + 1 })
    else
      some (.accepted, { b with pending := pending })

def drain (b : StoreAndForwardBuffer) : Option (List DrainedItem × StoreAndForwardBuffer) :=
  if b.link = .down then some ([], b)
  else
    match causalSort b.pending with
    | none => none
    | some sorted =>
      some (annotateOrderUnknown sorted,
        { b with pending := [], drainedTotal := b.drainedTotal + b.pending.length })

/-! ## 3. The buffer as a state machine -/

inductive Op
  | push (envelope : EvidenceEnvelope) (vc : VectorClock)
  | setLink (state : LinkState)
  | drain

inductive Output
  | pushed (outcome : PushOutcome)
  | linkSet
  | drained (items : List DrainedItem)

def step (b : StoreAndForwardBuffer) : Op → Option (Output × StoreAndForwardBuffer)
  | .push envelope vc => (b.push sha256 envelope vc).map fun r => (.pushed r.1, r.2)
  | .setLink state => some (.linkSet, b.setLink state)
  | .drain => b.drain.map fun r => (.drained r.1, r.2)

/-! ## 4. What each operation does -/

/-- Everything a push can do: refuse a remembered key, or remember the key and accept, at the
price of the oldest pending envelope when the buffer was full. -/
theorem push_cases (b : StoreAndForwardBuffer) (envelope : EvidenceEnvelope) (vc : VectorClock) :
    (replayKey sha256 envelope ∈ b.replayWindow ∧
      b.push sha256 envelope vc =
        some (.rejectedDuplicate, { b with duplicatesRejected := b.duplicatesRejected + 1 })) ∨
    (replayKey sha256 envelope ∉ b.replayWindow ∧ b.pending.length < b.capacity ∧
      b.push sha256 envelope vc =
        some (.accepted, { b.rememberKey (replayKey sha256 envelope) with
          pending := b.pending ++ [⟨envelope, vc⟩] })) ∨
    ∃ evicted rest, replayKey sha256 envelope ∉ b.replayWindow ∧
      b.capacity ≤ b.pending.length ∧ b.pending ++ [⟨envelope, vc⟩] = evicted :: rest ∧
      b.push sha256 envelope vc =
        some (.acceptedWithEviction evicted, { b.rememberKey (replayKey sha256 envelope) with
          pending := rest, evictedTotal := b.evictedTotal + 1 }) := by
  by_cases hkey : replayKey sha256 envelope ∈ b.replayWindow
  · exact Or.inl ⟨hkey, by simp only [push, if_pos hkey]⟩
  refine Or.inr ?_
  by_cases hfull : b.capacity ≤ b.pending.length
  · refine Or.inr ?_
    obtain ⟨evicted, rest, hsplit⟩ := List.exists_cons_of_ne_nil
      (List.append_ne_nil_of_right_ne_nil b.pending (List.cons_ne_nil ⟨envelope, vc⟩ []))
    have hlong : b.capacity < (evicted :: rest).length := by
      rw [← hsplit, List.length_append, List.length_singleton]
      omega
    refine ⟨evicted, rest, hkey, hfull, hsplit, ?_⟩
    simp only [push, if_neg hkey, rememberKey, hsplit, if_pos hlong]
  · refine Or.inl ⟨hkey, by omega, ?_⟩
    have hshort : ¬ b.capacity < (b.pending ++ [BufferedEnvelope.mk envelope vc]).length := by
      rw [List.length_append, List.length_singleton]
      omega
    simp only [push, if_neg hkey, rememberKey]
    exact if_neg hshort

/-- A drain over a link that is down does nothing. -/
theorem drain_down {b : StoreAndForwardBuffer} (h : b.link = .down) :
    b.drain = some ([], b) := by
  simp only [drain, if_pos h]

/-- A drain over a link that is up takes everything out, in causal order. -/
theorem drain_up {b : StoreAndForwardBuffer} (h : b.link ≠ .down) :
    ∃ sorted, causalSort b.pending = some sorted ∧ sorted.Perm b.pending ∧
      b.drain = some (annotateOrderUnknown sorted,
        { b with pending := [], drainedTotal := b.drainedTotal + b.pending.length }) := by
  obtain ⟨σ, hσ, hext, -⟩ := causalSort_eq b.pending
  refine ⟨σ.map b.pending.get, hσ, map_get_perm hext.perm, ?_⟩
  simp only [drain, if_neg h, hσ]

/-- The items of a drain, without their flags, are the items that were sorted. -/
theorem map_buffered_annotateOrderUnknown (items : List BufferedEnvelope) :
    (annotateOrderUnknown items).map DrainedItem.buffered = items := by
  rw [annotateOrderUnknown, List.map_map]
  exact List.map_get_finRange items

/-- **No operation panics.** -/
theorem step_total (b : StoreAndForwardBuffer) (op : Op) :
    ∃ out b', b.step sha256 op = some (out, b') := by
  cases op with
  | push envelope vc =>
    rcases push_cases sha256 b envelope vc with
      ⟨-, h⟩ | ⟨-, -, h⟩ | ⟨_, _, -, -, -, h⟩ <;>
    exact ⟨_, _, by rw [step, h]; rfl⟩
  | setLink state => exact ⟨_, _, rfl⟩
  | drain =>
    by_cases h : b.link = .down
    · exact ⟨_, _, by rw [step, drain_down h]; rfl⟩
    · obtain ⟨_, -, -, hd⟩ := drain_up h
      exact ⟨_, _, by rw [step, hd]; rfl⟩

end StoreAndForwardBuffer

end Musubi.Core
