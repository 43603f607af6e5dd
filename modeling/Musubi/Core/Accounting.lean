/-
# Where every pushed envelope goes

The account of a whole run of the buffer: a pushed envelope is pending, was returned by a drain,
was handed back by the push that evicted it, or was refused.  The five projections of the log name
what went in and what came out, and ONE invariant (`Accounted`) ties them to the two queues and
the counters.  Both results of the module read it off a run.

The comment beside `drained_total` in the source says less than this and something else: that what
is pending and what was drained add up to the pushes.  They do so only while nothing is refused
and nothing evicted, and `every_push_accounted` has all four places.

The two queues are bounded separately, and what relates them is that both are fed by the accepted
envelopes and both keep the LAST of them: the window remembers the keys of the last
`replayWindowCap` accepted, and none of the last `capacity` accepted has been evicted.  Where the
window is no larger than the capacity, a remembered key therefore belongs to an envelope that is
still there or has been delivered, and a refusal loses nothing
(`rejectedDuplicate_has_kept_twin`).

The account is stated as a permutation and not by sets, since one envelope may be pushed many
times; the step lemmas count each envelope on either side.
-/
import Mathlib.Data.List.Perm.Basic
import Musubi.Core.StoreAndForward

namespace Musubi.Core

open Lib
open StoreAndForwardBuffer

/-! ## 1. Projections of the log -/

abbrev Log := List (Op × Output)

/-- What was pushed, whatever the answer. -/
def pushed (log : Log) : List BufferedEnvelope :=
  log.filterMap fun
    | (.push envelope vc, _) => some ⟨envelope, vc⟩
    | _ => none

/-- The answer to a push, with the envelope that was pushed. -/
def answers (log : Log) : List (BufferedEnvelope × PushOutcome) :=
  log.filterMap fun
    | (.push envelope vc, .pushed outcome) => some (⟨envelope, vc⟩, outcome)
    | _ => none

def accepted (log : Log) : List BufferedEnvelope :=
  (answers log).filterMap fun a => if a.2.isDuplicate then none else some a.1

def refused (log : Log) : List BufferedEnvelope :=
  (answers log).filterMap fun a => if a.2.isDuplicate then some a.1 else none

/-- What the pushes handed back. -/
def evicted (log : Log) : List BufferedEnvelope :=
  (answers log).filterMap fun a =>
    match a.2 with
    | .acceptedWithEviction x => some x
    | _ => none

/-- What the drains returned, without the flags. -/
def returned (log : Log) : List BufferedEnvelope :=
  log.flatMap fun
    | (_, .drained items) => items.map DrainedItem.buffered
    | _ => []

/-! ## 2. The account -/

/-- The account of a run with log `log` that ends in `b`: where every pushed envelope is now, what
the three counters say, and of what the two queues are the last part. -/
structure Accounted (sha256 : List UInt8 → Digest) (capacity replayWindowCap : ℕ) (log : Log)
    (b : StoreAndForwardBuffer) : Prop where
  capacity_eq : b.capacity = max capacity 1
  cap_eq : b.replayWindowCap = max replayWindowCap 1
  perm : (pushed log).Perm (b.pending ++ returned log ++ evicted log ++ refused log)
  drained_eq : b.drainedTotal = (returned log).length
  evicted_eq : b.evictedTotal = (evicted log).length
  refused_eq : b.duplicatesRejected = (refused log).length
  pending_le : b.pending.length ≤ b.capacity
  pending_suffix : b.pending <:+ accepted log
  window_eq : b.replayWindow =
    ((accepted log).rtake b.replayWindowCap).map fun x => replayKey sha256 x.envelope
  kept : ∀ x ∈ (accepted log).rtake b.capacity, x ∈ b.pending ∨ x ∈ returned log

section Projections

variable (l l' : Log)

@[simp] theorem pushed_append : pushed (l ++ l') = pushed l ++ pushed l' :=
  List.filterMap_append

@[simp] theorem answers_append : answers (l ++ l') = answers l ++ answers l' :=
  List.filterMap_append

@[simp] theorem accepted_append : accepted (l ++ l') = accepted l ++ accepted l' := by
  rw [accepted, answers_append, List.filterMap_append]
  rfl

@[simp] theorem refused_append : refused (l ++ l') = refused l ++ refused l' := by
  rw [refused, answers_append, List.filterMap_append]
  rfl

@[simp] theorem evicted_append : evicted (l ++ l') = evicted l ++ evicted l' := by
  rw [evicted, answers_append, List.filterMap_append]
  rfl

@[simp] theorem returned_append : returned (l ++ l') = returned l ++ returned l' :=
  List.flatMap_append

end Projections

variable {sha256 : List UInt8 → Digest} {c w : ℕ} {log : Log} {b : StoreAndForwardBuffer}
  {envelope : EvidenceEnvelope} {vc : VectorClock}

@[simp] theorem pushed_push (out : Output) :
    pushed [(.push envelope vc, out)] = [⟨envelope, vc⟩] := rfl

@[simp] theorem accepted_push (outcome : PushOutcome) :
    accepted [(.push envelope vc, .pushed outcome)] =
      if outcome.isDuplicate then [] else [⟨envelope, vc⟩] := by
  cases outcome <;> rfl

@[simp] theorem refused_push (outcome : PushOutcome) :
    refused [(.push envelope vc, .pushed outcome)] =
      if outcome.isDuplicate then [⟨envelope, vc⟩] else [] := by
  cases outcome <;> rfl

@[simp] theorem evicted_push (outcome : PushOutcome) :
    evicted [(.push envelope vc, .pushed outcome)] =
      match outcome with
      | .acceptedWithEviction x => [x]
      | _ => [] := by
  cases outcome <;> rfl

@[simp] theorem returned_push (outcome : PushOutcome) :
    returned [(.push envelope vc, .pushed outcome)] = [] := rfl

section Drain

variable (items : List DrainedItem)

@[simp] theorem pushed_drain : pushed [(.drain, .drained items)] = [] := rfl
@[simp] theorem accepted_drain : accepted [(.drain, .drained items)] = [] := rfl
@[simp] theorem refused_drain : refused [(.drain, .drained items)] = [] := rfl
@[simp] theorem evicted_drain : evicted [(.drain, .drained items)] = [] := rfl

@[simp] theorem returned_drain :
    returned [(.drain, .drained items)] = items.map DrainedItem.buffered :=
  List.append_nil _

end Drain

/-! ## 3. Every operation keeps the account -/

theorem accounted_withCapacity (initial : LinkState) :
    Accounted sha256 c w [] (StoreAndForwardBuffer.withCapacity initial c w) where
  capacity_eq := rfl
  cap_eq := rfl
  perm := List.Perm.nil
  drained_eq := rfl
  evicted_eq := rfl
  refused_eq := rfl
  pending_le := Nat.zero_le _
  pending_suffix := List.suffix_rfl
  window_eq := by simp [accepted, answers, List.rtake, StoreAndForwardBuffer.withCapacity]
  kept := fun _ hx => by simp [accepted, answers, List.rtake] at hx

/-- A refusal puts the envelope among the refused and touches nothing else. -/
theorem Accounted.refuse (h : Accounted sha256 c w log b) :
    Accounted sha256 c w (log ++ [(.push envelope vc, .pushed .rejectedDuplicate)])
      { b with duplicatesRejected := b.duplicatesRejected + 1 } where
  capacity_eq := h.capacity_eq
  cap_eq := h.cap_eq
  perm := by
    refine List.perm_iff_count.mpr fun x => ?_
    have hx := h.perm.count_eq x
    simp [PushOutcome.isDuplicate] at hx ⊢
    omega
  drained_eq := by simpa using h.drained_eq
  evicted_eq := by simpa using h.evicted_eq
  refused_eq := by simpa [PushOutcome.isDuplicate] using h.refused_eq
  pending_le := h.pending_le
  pending_suffix := by simpa [PushOutcome.isDuplicate] using h.pending_suffix
  window_eq := by simpa [PushOutcome.isDuplicate] using h.window_eq
  kept := by simpa [PushOutcome.isDuplicate] using h.kept

/-- The window after one more key: the keys of the last accepted, the new one included. -/
theorem Accounted.window_push (h : Accounted sha256 c w log b) (x : BufferedEnvelope) :
    pushBack b.replayWindowCap b.replayWindow (replayKey sha256 x.envelope) =
      ((accepted log ++ [x]).rtake b.replayWindowCap).map fun x => replayKey sha256 x.envelope := by
  rw [h.window_eq, ← pushBack_rtake, map_pushBack]

/-- Acceptance with room to spare: the envelope is pending, and so is what was. -/
theorem Accounted.accept (h : Accounted sha256 c w log b)
    (hroom : b.pending.length < b.capacity) :
    Accounted sha256 c w (log ++ [(.push envelope vc, .pushed .accepted)])
      { b.rememberKey (replayKey sha256 envelope) with
        pending := b.pending ++ [⟨envelope, vc⟩] } where
  capacity_eq := h.capacity_eq
  cap_eq := h.cap_eq
  perm := by
    refine List.perm_iff_count.mpr fun x => ?_
    have hx := h.perm.count_eq x
    simp [PushOutcome.isDuplicate, List.count_cons] at hx ⊢
    omega
  drained_eq := by simpa using h.drained_eq
  evicted_eq := by simpa using h.evicted_eq
  refused_eq := by simpa [PushOutcome.isDuplicate] using h.refused_eq
  pending_le := by
    rw [List.length_append]
    exact hroom
  pending_suffix := by
    obtain ⟨pre, hpre⟩ := h.pending_suffix
    exact ⟨pre, by simp [PushOutcome.isDuplicate, ← hpre]⟩
  window_eq := by simpa [PushOutcome.isDuplicate] using h.window_push ⟨envelope, vc⟩
  kept := by
    intro x hx
    simp only [accepted_append, accepted_push, PushOutcome.isDuplicate, Bool.false_eq_true,
      if_false, rememberKey_capacity] at hx
    rw [returned_append, returned_push, List.append_nil]
    rcases mem_rtake_concat hx with rfl | hx
    · exact Or.inl (List.mem_append_right _ (List.mem_singleton_self _))
    · exact (h.kept x hx).imp_left (List.mem_append_left _)

/-- Acceptance into a full buffer: the oldest pending envelope comes back.  What stays pending
is exactly the last `capacity` accepted. -/
theorem Accounted.evict (h : Accounted sha256 c w log b) (hfull : b.capacity ≤ b.pending.length)
    {x : BufferedEnvelope} {rest : List BufferedEnvelope}
    (hsplit : b.pending ++ [⟨envelope, vc⟩] = x :: rest) :
    Accounted sha256 c w (log ++ [(.push envelope vc, .pushed (.acceptedWithEviction x))])
      { b.rememberKey (replayKey sha256 envelope) with
        pending := rest, evictedTotal := b.evictedTotal + 1 } := by
  have hlen : rest.length = b.capacity := by
    have h1 := congrArg List.length hsplit
    have h2 := h.pending_le
    simp only [List.length_append, List.length_cons, List.length_nil] at h1
    omega
  have hsuffix : rest <:+ accepted log ++ [⟨envelope, vc⟩] := by
    obtain ⟨pre, hpre⟩ := h.pending_suffix
    exact ⟨pre ++ [x], by rw [List.append_assoc, List.singleton_append, ← hsplit, ← hpre,
      List.append_assoc]⟩
  refine
    { capacity_eq := h.capacity_eq
      cap_eq := h.cap_eq
      perm := ?_
      drained_eq := by simpa using h.drained_eq
      evicted_eq := by simpa using h.evicted_eq
      refused_eq := by simpa [PushOutcome.isDuplicate] using h.refused_eq
      pending_le := hlen.le
      pending_suffix := by simpa [PushOutcome.isDuplicate] using hsuffix
      window_eq := by simpa [PushOutcome.isDuplicate] using h.window_push ⟨envelope, vc⟩
      kept := fun y hy => Or.inl ?_ }
  · refine List.perm_iff_count.mpr fun y => ?_
    have hy := h.perm.count_eq y
    have hs := congrArg (List.count y) hsplit
    simp [PushOutcome.isDuplicate, List.count_cons] at hy hs ⊢
    omega
  · simp only [accepted_append, accepted_push, PushOutcome.isDuplicate, Bool.false_eq_true,
      if_false, rememberKey_capacity] at hy
    rwa [← hlen, ← eq_rtake_of_suffix hsuffix] at hy

/-- An entry that neither pushes nor returns leaves the account as it is, whatever the link. -/
theorem Accounted.quiet (h : Accounted sha256 c w log b) {entry : Op × Output}
    (hp : pushed [entry] = []) (ha : answers [entry] = []) (hr : returned [entry] = [])
    (state : LinkState) : Accounted sha256 c w (log ++ [entry]) (b.setLink state) := by
  have hpush : pushed (log ++ [entry]) = pushed log := by rw [pushed_append, hp, List.append_nil]
  have hans : answers (log ++ [entry]) = answers log := by
    rw [answers_append, ha, List.append_nil]
  have hret : returned (log ++ [entry]) = returned log := by
    rw [returned_append, hr, List.append_nil]
  obtain ⟨h1, h2, h3, h4, h5, h6, h7, h8, h9, h10⟩ := h
  constructor <;> simpa only [accepted, refused, evicted, hpush, hans, hret]

/-- A drain over a link that is up: what was pending is returned. -/
theorem Accounted.drainUp (h : Accounted sha256 c w log b) {sorted : List BufferedEnvelope}
    (hperm : sorted.Perm b.pending) :
    Accounted sha256 c w (log ++ [(.drain, .drained (annotateOrderUnknown sorted))])
      { b with pending := [], drainedTotal := b.drainedTotal + b.pending.length } where
  capacity_eq := h.capacity_eq
  cap_eq := h.cap_eq
  perm := by
    refine List.perm_iff_count.mpr fun x => ?_
    have hx := h.perm.count_eq x
    have hs := hperm.count_eq x
    simp [map_buffered_annotateOrderUnknown] at hx ⊢
    omega
  drained_eq := by simp [map_buffered_annotateOrderUnknown, h.drained_eq, hperm.length_eq]
  evicted_eq := by simpa using h.evicted_eq
  refused_eq := by simpa using h.refused_eq
  pending_le := Nat.zero_le _
  pending_suffix := List.nil_suffix
  window_eq := by simpa using h.window_eq
  kept := by
    intro x hx
    simp only [accepted_append, accepted_drain, List.append_nil] at hx
    rw [returned_append, returned_drain, map_buffered_annotateOrderUnknown]
    refine Or.inr (List.mem_append.mpr ?_)
    exact (h.kept x hx).symm.imp_right hperm.mem_iff.mpr

/-- **Every step keeps the account.** -/
theorem Accounted.step (h : Accounted sha256 c w log b) {op : Op} {out : Output}
    {b' : StoreAndForwardBuffer} (hs : b.step sha256 op = some (out, b')) :
    Accounted sha256 c w (log ++ [(op, out)]) b' := by
  cases op with
  | push envelope vc =>
    rcases push_cases sha256 b envelope vc with
      ⟨-, hp⟩ | ⟨-, hroom, hp⟩ | ⟨x, rest, -, hfull, hsplit, hp⟩ <;>
      rw [StoreAndForwardBuffer.step, hp] at hs <;> cases hs
    · exact h.refuse
    · exact h.accept hroom
    · exact h.evict hfull hsplit
  | setLink state =>
    cases hs
    exact h.quiet rfl rfl rfl state
  | drain =>
    by_cases hlink : b.link = .down
    · rw [StoreAndForwardBuffer.step, drain_down hlink] at hs
      cases hs
      exact h.quiet rfl rfl rfl b.link
    · obtain ⟨sorted, -, hperm, hd⟩ := drain_up hlink
      rw [StoreAndForwardBuffer.step, hd] at hs
      cases hs
      exact h.drainUp hperm

/-! ## 4. Whole runs -/

/-- Every run goes through, and its account is kept.  By induction on the operations: the empty
buffer has an empty account, and `Accounted.step` does the rest. -/
theorem run_accounted (sha256 : List UInt8 → Digest) (initial : LinkState) (c w : ℕ)
    (ops : List Op) :
    ∃ log b, run (StoreAndForwardBuffer.step sha256) (withCapacity initial c w) ops =
      some (log, b) ∧ log.map Prod.fst = ops ∧ Accounted sha256 c w log b := by
  obtain ⟨log, b, hrun, -⟩ := run_total (I := fun _ => True)
    (fun b op _ => let ⟨out, b', h⟩ := step_total sha256 b op
      ⟨out, b', h, trivial⟩) ops (withCapacity initial c w) trivial
  exact ⟨log, b, hrun, run_inputs hrun,
    run_invariant (accounted_withCapacity initial) (fun _ _ _ _ _ h hs => h.step hs) hrun⟩

/-- **No envelope is lost and none is doubled.** Whatever is pushed, toggled and drained, the
pushed envelopes are the pending, the returned, the evicted and the refused ones, each in one
place; the counters say how many; the two bounds hold; and a drain over a link that is down
changes nothing.  The operations are arbitrary and so are the bounds, of which the constructor
raises a zero to one.  That there is a log at all says that no operation of the run panics. -/
theorem every_push_accounted (sha256 : List UInt8 → Digest) (initial : LinkState)
    (capacity replayWindowCap : ℕ) (ops : List Op) :
    ∃ log b, run (StoreAndForwardBuffer.step sha256)
        (withCapacity initial capacity replayWindowCap) ops = some (log, b) ∧
      log.map Prod.fst = ops ∧
      (pushed log).Perm (b.pending ++ returned log ++ evicted log ++ refused log) ∧
      b.drainedTotal = (returned log).length ∧ b.evictedTotal = (evicted log).length ∧
      b.duplicatesRejected = (refused log).length ∧
      (pushed log).length =
        b.pendingLen + b.drainedTotal + b.duplicatesRejected + b.evictedTotal ∧
      b.pendingLen ≤ max capacity 1 ∧ b.replayWindow.length ≤ max replayWindowCap 1 ∧
      (b.link = .down → b.drain = some ([], b)) := by
  obtain ⟨log, b, hrun, hops, h⟩ := run_accounted sha256 initial capacity replayWindowCap ops
  refine ⟨log, b, hrun, hops, h.perm, h.drained_eq, h.evicted_eq, h.refused_eq, ?_,
    h.capacity_eq ▸ h.pending_le, ?_, drain_down⟩
  · have hlen := h.perm.length_eq
    have h1 := h.drained_eq
    have h2 := h.evicted_eq
    have h3 := h.refused_eq
    simp only [List.length_append] at hlen
    unfold pendingLen
    omega
  · rw [h.window_eq, List.length_map, length_rtake, h.cap_eq]
    exact Nat.min_le_left _ _

/-- A remembered key belongs to an accepted envelope that has not been evicted, as long as no
more keys are remembered than envelopes kept. -/
theorem Accounted.remembered (h : Accounted sha256 c w log b) (hw : max w 1 ≤ max c 1)
    {key : Digest} (hkey : key ∈ b.replayWindow) :
    ∃ x ∈ accepted log, replayKey sha256 x.envelope = key ∧
      (x ∈ b.pending ∨ x ∈ returned log) := by
  rw [h.window_eq, List.mem_map] at hkey
  obtain ⟨x, hx, rfl⟩ := hkey
  refine ⟨x, ?_, rfl, h.kept x (mem_rtake_mono ?_ hx)⟩
  · rw [List.rtake] at hx
    exact List.mem_of_mem_drop hx
  · rw [h.cap_eq, h.capacity_eq]
    exact hw

/-- **A refusal never throws an observation away.** With a window no larger than the capacity,
what a push refuses has a twin that was accepted and is still pending or has been returned.  The
hypothesis is needed: with a larger window a key can be remembered whose envelope has been
evicted, and then the refused push was the last copy.  The shipped bounds, ten thousand and four
thousand and ninety-six, meet it. -/
theorem rejectedDuplicate_has_kept_twin {capacity replayWindowCap : ℕ}
    (hw : max replayWindowCap 1 ≤ max capacity 1) {initial : LinkState} {ops : List Op}
    {log : Log} {b b' : StoreAndForwardBuffer}
    (hrun : run (StoreAndForwardBuffer.step sha256)
      (withCapacity initial capacity replayWindowCap) ops = some (log, b))
    (hpush : b.push sha256 envelope vc = some (.rejectedDuplicate, b')) :
    ∃ x ∈ accepted log, replayKey sha256 x.envelope = replayKey sha256 envelope ∧
      (x ∈ b.pending ∨ x ∈ returned log) := by
  have h : Accounted sha256 capacity replayWindowCap log b :=
    run_invariant (accounted_withCapacity initial) (fun _ _ _ _ _ h hs => h.step hs) hrun
  rcases push_cases sha256 b envelope vc with
    ⟨hkey, -⟩ | ⟨-, -, hp⟩ | ⟨_, _, -, -, -, hp⟩
  · exact h.remembered hw hkey
  · rw [hp] at hpush
    cases hpush
  · rw [hp] at hpush
    cases hpush

/-- One envelope pushed into the shipped bounds and drained. -/
def resentLog : Log :=
  [(.push goldenSample (VectorClock.single "alpha" 1), .pushed .accepted),
    (.drain, .drained [⟨⟨goldenSample, VectorClock.single "alpha" 1⟩, false⟩])]

/-- The buffer it leaves: nothing pending, one key remembered. -/
def resentBuffer : StoreAndForwardBuffer :=
  { StoreAndForwardBuffer.new .up with
    drainedTotal := 1
    replayWindow := [replayKey Sha256.hash goldenSample] }

/-- The same envelope again: its twin has been returned. -/
theorem resent_has_kept_twin :
    ∃ x ∈ accepted resentLog,
      replayKey Sha256.hash x.envelope = replayKey Sha256.hash goldenSample ∧
      (x ∈ resentBuffer.pending ∨ x ∈ returned resentLog) :=
  @rejectedDuplicate_has_kept_twin Sha256.hash goldenSample (VectorClock.single "alpha" 2)
    defaultCapacity defaultReplayWindow (by decide) .up
    [.push goldenSample (VectorClock.single "alpha" 1), .drain] resentLog resentBuffer
    { resentBuffer with duplicatesRejected := 1 } rfl
    (by simp [StoreAndForwardBuffer.push, resentBuffer, StoreAndForwardBuffer.new, withCapacity])

end Musubi.Core
