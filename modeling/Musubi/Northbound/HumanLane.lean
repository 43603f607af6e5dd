/-
# The human lane

The bounded queue of withheld envelopes that people work off (`HumanLane` of `fanout.rs`): push,
acknowledge, and the handoff of a shift.  A full lane gives up its first acknowledged entry, or
its first entry when none is acknowledged.

Three operations touch the same queue, the owner and the log, so there is one invariant (`Kept`),
one lemma a field and operation where there is something to say, and the results of section 4 are
its fields read off a run.

The sequence numbers and counters of the source are `u64` and `usize`, and each of them grows by
one in an operation.  They are NATURAL NUMBERS here: a run that reaches the end of 64 bits is not
modelled, and the results are about runs shorter than that.

Which entry a full lane gives up is the one question with two answers, and a run can meet both.  A
push therefore has its spec as a statement about the lane before it: the entry that goes is an old
one, and it is a pending one only when no entry has been acknowledged.
-/
import Mathlib.Data.List.Chain
import Mathlib.Data.List.Range
import Musubi.Lib.BoundedQueue
import Musubi.Lib.Runs
import Musubi.Types

namespace Musubi.Northbound

open Lib

/-! ## 1. The lane -/

structure HumanLaneEntry where
  envelope : EvidenceEnvelope
  dialect : String
  sequence : ℕ
  acked : Bool
  owner : String
deriving DecidableEq

structure HandoffRecord where
  previousOwner : String
  nextOwner : String
  handoffSequence : ℕ
  pendingAtHandoff : ℕ
deriving DecidableEq, Repr

structure HumanLane where
  capacity : ℕ
  nextSequence : ℕ
  entries : List HumanLaneEntry
  evictedTotal : ℕ
  currentOwner : String
  handoffLog : List HandoffRecord
  nextHandoffSequence : ℕ
  capacity_pos : 0 < capacity

namespace HumanLane

def new (capacity : ℕ) : HumanLane where
  capacity := max capacity 1
  nextSequence := 0
  entries := []
  evictedTotal := 0
  currentOwner := "unassigned"
  handoffLog := []
  nextHandoffSequence := 0
  capacity_pos := bound_pos capacity

/-- The entry a push adds. -/
def newEntry (lane : HumanLane) (envelope : EvidenceEnvelope) (dialect : String) :
    HumanLaneEntry :=
  { envelope := envelope
    dialect := dialect
    sequence := lane.nextSequence
    acked := false
    owner := lane.currentOwner }

/-- The entry that gives way: the first acknowledged one, else the first. -/
def evictPos (entries : List HumanLaneEntry) : ℕ := (entries.findIdx? (·.acked)).getD 0

def push (lane : HumanLane) (envelope : EvidenceEnvelope) (dialect : String) :
    Option HumanLaneEntry × HumanLane :=
  let entries := lane.entries ++ [lane.newEntry envelope dialect]
  let lane := { lane with nextSequence := lane.nextSequence + 1, entries := entries }
  if lane.capacity < entries.length then
    (entries[evictPos entries]?,
      { lane with
        entries := entries.eraseIdx (evictPos entries)
        evictedTotal := lane.evictedTotal + 1 })
  else (none, lane)

/-- Mark the first entry of this sequence as acknowledged; whether there is one. -/
def ack (lane : HumanLane) (sequence : ℕ) : Bool × HumanLane :=
  match lane.entries.findIdx? (·.sequence = sequence) with
  | some i => (true, { lane with entries := lane.entries.modify i ({ · with acked := true }) })
  | none => (false, lane)

def pending (lane : HumanLane) : List HumanLaneEntry := lane.entries.filter (!·.acked)

def pendingLen (lane : HumanLane) : ℕ := lane.pending.length

/-- How many pushes ago the oldest pending entry came in. -/
def oldestPendingAge (lane : HumanLane) : Option ℕ :=
  lane.pending.head?.map fun e => lane.nextSequence - e.sequence - 1

def handoff (lane : HumanLane) (nextOwner : String) : HandoffRecord × HumanLane :=
  let record : HandoffRecord :=
    { previousOwner := lane.currentOwner
      nextOwner := nextOwner
      handoffSequence := lane.nextHandoffSequence
      pendingAtHandoff := lane.pendingLen }
  (record,
    { lane with
      currentOwner := nextOwner
      entries := lane.entries.map fun e => if e.acked then e else { e with owner := nextOwner }
      nextHandoffSequence := lane.nextHandoffSequence + 1
      handoffLog := lane.handoffLog ++ [record] })

/-! ## 2. The lane as a state machine -/

inductive Op
  | push (envelope : EvidenceEnvelope) (dialect : String)
  | ack (sequence : ℕ)
  | handoff (nextOwner : String)

inductive Output
  | pushed (evicted : Option HumanLaneEntry)
  | acked (found : Bool)
  | handedOff (record : HandoffRecord)

/-- No operation fails. -/
def step (lane : HumanLane) : Op → Option (Output × HumanLane)
  | .push envelope dialect =>
    let r := lane.push envelope dialect
    some (.pushed r.1, r.2)
  | .ack sequence =>
    let r := lane.ack sequence
    some (.acked r.1, r.2)
  | .handoff nextOwner =>
    let r := lane.handoff nextOwner
    some (.handedOff r.1, r.2)

theorem step_total (lane : HumanLane) (op : Op) :
    ∃ out lane', lane.step op = some (out, lane') := by
  cases op <;> exact ⟨_, _, rfl⟩

/-! ## 3. What a push does -/

/-- What gives way to an unacknowledged newcomer: an old entry, and an acknowledged one if
there is any. -/
theorem evictPos_spec {entries : List HumanLaneEntry} {entry : HumanLaneEntry}
    (hentry : entry.acked = false) (hne : entries ≠ []) :
    ∃ i evicted, evictPos (entries ++ [entry]) = i ∧ i < entries.length ∧
      entries[i]? = some evicted ∧ (evicted.acked = false → ∀ e ∈ entries, e.acked = false) := by
  have hnew : [entry].findIdx? (·.acked) = none := by simp [hentry]
  cases hfind : entries.findIdx? (·.acked) with
  | none =>
    refine ⟨0, entries.head hne, ?_, List.length_pos_iff.mpr hne, ?_, fun _ e he => ?_⟩
    · simp [evictPos, List.findIdx?_append, hfind, hentry]
    · rw [← List.head?_eq_getElem?, List.head?_eq_some_head hne]
    · simpa using List.findIdx?_eq_none_iff.mp hfind e he
  | some i =>
    obtain ⟨hi, hacked, -⟩ := List.findIdx?_eq_some_iff_getElem.mp hfind
    refine ⟨i, entries[i], ?_, hi, List.getElem?_eq_getElem hi, fun h => ?_⟩
    · simp [evictPos, List.findIdx?_append, hfind]
    · rw [hacked] at h
      cases h

/-- A lane with room takes the entry. -/
theorem push_of_room (lane : HumanLane) (envelope : EvidenceEnvelope) (dialect : String)
    (hroom : lane.entries.length < lane.capacity) :
    lane.push envelope dialect =
      (none, { lane with
        nextSequence := lane.nextSequence + 1
        entries := lane.entries ++ [lane.newEntry envelope dialect] }) := by
  simp only [push, List.length_append, List.length_singleton]
  exact if_neg (by omega)

/-- Everything a push can do. -/
theorem push_cases (lane : HumanLane) (envelope : EvidenceEnvelope) (dialect : String)
    (hle : lane.entries.length ≤ lane.capacity) :
    (lane.entries.length < lane.capacity ∧
      lane.push envelope dialect =
        (none, { lane with
          nextSequence := lane.nextSequence + 1
          entries := lane.entries ++ [lane.newEntry envelope dialect] })) ∨
    ∃ i evicted, lane.entries.length = lane.capacity ∧ i < lane.entries.length ∧
      lane.entries[i]? = some evicted ∧
      (evicted.acked = false → ∀ e ∈ lane.entries, e.acked = false) ∧
      lane.push envelope dialect =
        (some evicted, { lane with
          nextSequence := lane.nextSequence + 1
          entries := lane.entries.eraseIdx i ++ [lane.newEntry envelope dialect]
          evictedTotal := lane.evictedTotal + 1 }) := by
  have hlen : (lane.entries ++ [lane.newEntry envelope dialect]).length =
      lane.entries.length + 1 := by rw [List.length_append]; rfl
  by_cases hroom : lane.entries.length < lane.capacity
  · exact Or.inl ⟨hroom, lane.push_of_room envelope dialect hroom⟩
  refine Or.inr ?_
  have hne : lane.entries ≠ [] := by
    have hpos := lane.capacity_pos
    exact List.ne_nil_of_length_pos (by omega)
  obtain ⟨i, evicted, hpos, hi, hget, hpref⟩ :=
    @evictPos_spec lane.entries (lane.newEntry envelope dialect) rfl hne
  refine ⟨i, evicted, by omega, hi, hget, hpref, ?_⟩
  simp only [push]
  rw [if_pos (by omega), hpos, List.getElem?_append_left hi, hget,
    List.eraseIdx_append_of_lt_length hi]

/-- Everything an acknowledgement can do. -/
theorem ack_cases (lane : HumanLane) (sequence : ℕ) :
    (∃ l₁ e l₂, lane.entries = l₁ ++ e :: l₂ ∧ e.sequence = sequence ∧
      lane.ack sequence =
        (true, { lane with entries := l₁ ++ { e with acked := true } :: l₂ })) ∨
    lane.ack sequence = (false, lane) := by
  cases hfind : lane.entries.findIdx? (·.sequence = sequence) with
  | none => exact Or.inr (by simp only [ack, hfind])
  | some i =>
    obtain ⟨hi, hseq, -⟩ := List.findIdx?_eq_some_iff_getElem.mp hfind
    obtain ⟨l₁, e, l₂, hsplit, hlen, hmod⟩ :=
      List.exists_of_modify (fun e : HumanLaneEntry => { e with acked := true }) hi
    refine Or.inl ⟨l₁, e, l₂, hsplit, ?_, by simp only [ack, hfind, hmod]⟩
    simp only [hsplit, ← hlen, List.getElem_append_right (Nat.le_refl _), Nat.sub_self,
      List.getElem_cons_zero, decide_eq_true_eq] at hseq
    exact hseq

/-! ## 4. The account of a run -/

abbrev Log := List (Op × Output)

/-- What the pushes gave up. -/
def evictions (log : Log) : List HumanLaneEntry :=
  log.filterMap fun
    | (_, .pushed evicted) => evicted
    | _ => none

def pushes (log : Log) : ℕ :=
  log.countP fun
    | (.push .., _) => true
    | _ => false

/-- The records the handoffs returned. -/
def handoffs (log : Log) : List HandoffRecord :=
  log.filterMap fun
    | (_, .handedOff record) => some record
    | _ => none

/-- The account of a run with log `log` that ends in `lane`: how many entries there are and were
given up, which sequences they have, whose they are, and what the handoff log says. -/
structure Kept (capacity : ℕ) (log : Log) (lane : HumanLane) : Prop where
  capacity_eq : lane.capacity = max capacity 1
  length_le : lane.entries.length ≤ lane.capacity
  pushes_eq : pushes log = lane.entries.length + lane.evictedTotal
  evicted_eq : lane.evictedTotal = (evictions log).length
  below : ∀ e ∈ lane.entries, e.sequence < lane.nextSequence
  increasing : lane.entries.Pairwise fun e e' => e.sequence < e'.sequence
  owned : ∀ e ∈ lane.entries, e.acked = false → e.owner = lane.currentOwner
  log_eq : lane.handoffLog = handoffs log
  numbered : lane.handoffLog.map HandoffRecord.handoffSequence =
    List.range lane.handoffLog.length
  next_eq : lane.nextHandoffSequence = lane.handoffLog.length
  linked : lane.handoffLog.IsChain fun r r' => r.nextOwner = r'.previousOwner
  last_eq : ∀ r ∈ lane.handoffLog.getLast?, r.nextOwner = lane.currentOwner

variable {capacity : ℕ} {log : Log} {lane : HumanLane}

theorem kept_new (capacity : ℕ) : Kept capacity [] (new capacity) where
  capacity_eq := rfl
  length_le := Nat.zero_le _
  pushes_eq := rfl
  evicted_eq := rfl
  below := fun _ he => nomatch he
  increasing := List.Pairwise.nil
  owned := fun _ he => nomatch he
  log_eq := rfl
  numbered := rfl
  next_eq := rfl
  linked := List.IsChain.nil
  last_eq := fun _ hr => nomatch hr

/-- The new entry comes after whatever is left of the old ones. -/
theorem Kept.pushOnto (h : Kept capacity log lane) (envelope : EvidenceEnvelope)
    (dialect : String) {old : List HumanLaneEntry} (hold : old.Sublist lane.entries)
    (evicted : Option HumanLaneEntry) (hroom : old.length < lane.capacity)
    (hcount : old.length + evicted.toList.length = lane.entries.length) :
    Kept capacity (log ++ [(.push envelope dialect, .pushed evicted)])
      { lane with
        nextSequence := lane.nextSequence + 1
        entries := old ++ [lane.newEntry envelope dialect]
        evictedTotal := lane.evictedTotal + evicted.toList.length } where
  capacity_eq := h.capacity_eq
  length_le := by
    rw [List.length_append]
    exact hroom
  pushes_eq := by
    have hpushes : pushes (log ++ [(.push envelope dialect, .pushed evicted)]) =
        pushes log + 1 := by simp [pushes]
    have hlog := h.pushes_eq
    simp only [hpushes, List.length_append, List.length_singleton]
    omega
  evicted_eq := by
    rw [h.evicted_eq]
    cases evicted <;> simp [evictions]
  below := by
    intro e he
    rcases List.mem_append.mp he with he | he
    · exact Nat.lt_succ_of_lt (h.below e (hold.subset he))
    · obtain rfl := List.mem_singleton.mp he
      exact Nat.lt_succ_self _
  increasing := by
    refine List.pairwise_append.mpr
      ⟨h.increasing.sublist hold, List.pairwise_singleton _ _, fun e he e' he' => ?_⟩
    obtain rfl := List.mem_singleton.mp he'
    exact h.below e (hold.subset he)
  owned := by
    intro e he hacked
    rcases List.mem_append.mp he with he | he
    · exact h.owned e (hold.subset he) hacked
    · obtain rfl := List.mem_singleton.mp he
      rfl
  log_eq := by simpa [handoffs] using h.log_eq
  numbered := h.numbered
  next_eq := h.next_eq
  linked := h.linked
  last_eq := h.last_eq

theorem Kept.push (h : Kept capacity log lane) (envelope : EvidenceEnvelope)
    (dialect : String) :
    Kept capacity (log ++ [(.push envelope dialect, .pushed (lane.push envelope dialect).1)])
      (lane.push envelope dialect).2 := by
  rcases lane.push_cases envelope dialect h.length_le with
    ⟨hroom, hp⟩ | ⟨i, evicted, hfull, hi, -, -, hp⟩ <;> rw [hp]
  · exact h.pushOnto envelope dialect (List.Sublist.refl _) none hroom rfl
  · have hlen : (lane.entries.eraseIdx i).length + 1 = lane.entries.length := by
      rw [List.length_eraseIdx_of_lt hi, Nat.sub_add_cancel (Nat.one_le_of_lt hi)]
    exact h.pushOnto envelope dialect (List.eraseIdx_sublist _ i) (some evicted) (by omega) hlen

/-- An acknowledgement touches one flag. -/
theorem Kept.ack (h : Kept capacity log lane) (sequence : ℕ) :
    Kept capacity (log ++ [(.ack sequence, .acked (lane.ack sequence).1)])
      (lane.ack sequence).2 := by
  have hpushes (found : Bool) : pushes (log ++ [(.ack sequence, .acked found)]) =
      pushes log := by simp [pushes]
  have hevict (found : Bool) : evictions (log ++ [(.ack sequence, .acked found)]) =
      evictions log := by simp [evictions]
  have hhand (found : Bool) : handoffs (log ++ [(.ack sequence, .acked found)]) =
      handoffs log := by simp [handoffs]
  rcases lane.ack_cases sequence with ⟨l₁, e, l₂, hsplit, -, ha⟩ | ha <;> rw [ha]
  · obtain ⟨h1, h2, h3, h4, h5, h6, h7, h8, h9, h10, h11, h12⟩ := h
    rw [hsplit] at h2 h3 h5 h6 h7
    refine ⟨h1, ?_, ?_, ?_, ?_, ?_, ?_, ?_, h9, h10, h11, h12⟩
    · simpa using h2
    · simpa [hpushes] using h3
    · simpa [hevict] using h4
    · simp only [List.mem_append, List.mem_cons] at h5 ⊢
      rintro x (hx | rfl | hx)
      · exact h5 x (Or.inl hx)
      · exact h5 e (Or.inr (Or.inl rfl))
      · exact h5 x (Or.inr (Or.inr hx))
    · simpa [List.pairwise_append] using h6
    · simp only [List.mem_append, List.mem_cons] at h7 ⊢
      rintro x (hx | rfl | hx) hacked
      · exact h7 x (Or.inl hx) hacked
      · cases hacked
      · exact h7 x (Or.inr (Or.inr hx)) hacked
    · simpa [hhand] using h8
  · obtain ⟨h1, h2, h3, h4, h5, h6, h7, h8, h9, h10, h11, h12⟩ := h
    exact ⟨h1, h2, by rw [hpushes, h3], by rw [hevict, h4], h5, h6, h7, by rw [hhand, h8], h9,
      h10, h11, h12⟩

/-- A handoff passes every unacknowledged entry on and adds the next record. -/
theorem Kept.handoff (h : Kept capacity log lane) (nextOwner : String) :
    Kept capacity (log ++ [(.handoff nextOwner, .handedOff (lane.handoff nextOwner).1)])
      (lane.handoff nextOwner).2 where
  capacity_eq := h.capacity_eq
  length_le := by simpa [HumanLane.handoff] using h.length_le
  pushes_eq := by simpa [HumanLane.handoff, pushes] using h.pushes_eq
  evicted_eq := by simpa [HumanLane.handoff, evictions] using h.evicted_eq
  below := by
    intro e he
    obtain ⟨x, hx, rfl⟩ := List.mem_map.mp he
    have hlt := h.below x hx
    split <;> exact hlt
  increasing := by
    refine List.pairwise_map.mpr (h.increasing.imp fun {x y} hlt => ?_)
    split <;> split <;> exact hlt
  owned := by
    intro e he hacked
    obtain ⟨x, hx, rfl⟩ := List.mem_map.mp he
    split at hacked <;> rename_i hx'
    · rw [hx'] at hacked
      cases hacked
    · rw [if_neg hx']
      rfl
  log_eq := by
    rw [handoffs, List.filterMap_append, ← handoffs, ← h.log_eq]
    rfl
  numbered := by
    simp [HumanLane.handoff, h.numbered, h.next_eq, List.range_succ]
  next_eq := by simp [HumanLane.handoff, h.next_eq]
  linked := by
    refine List.isChain_append.mpr ⟨h.linked, List.IsChain.singleton _, fun r hr r' hr' => ?_⟩
    obtain rfl : _ = r' := by simpa using hr'
    exact h.last_eq r hr
  last_eq := by
    intro r hr
    rw [HumanLane.handoff, List.getLast?_concat] at hr
    obtain rfl := Option.some.inj hr
    rfl

theorem Kept.step (h : Kept capacity log lane) {op : Op} {out : Output} {lane' : HumanLane}
    (hs : lane.step op = some (out, lane')) : Kept capacity (log ++ [(op, out)]) lane' := by
  cases op with
  | push envelope dialect =>
    cases hs
    exact h.push envelope dialect
  | ack sequence =>
    cases hs
    exact h.ack sequence
  | handoff nextOwner =>
    cases hs
    exact h.handoff nextOwner

/-! ## 5. Whole runs -/

/-- No step takes a record out of the log. -/
theorem handoffLog_prefix_step {op : Op} {out : Output} {lane' : HumanLane}
    (hs : lane.step op = some (out, lane')) : lane.handoffLog <+: lane'.handoffLog := by
  cases op with
  | push envelope dialect =>
    cases hs
    simp only [HumanLane.push]
    split <;> exact List.prefix_rfl
  | ack sequence =>
    cases hs
    rcases lane.ack_cases sequence with ⟨l₁, e, l₂, -, -, ha⟩ | ha <;>
      simp only [ha, List.prefix_rfl]
  | handoff nextOwner =>
    cases hs
    exact List.prefix_append _ _

/-- What a push gives up was in the lane before, is not the entry just pushed, and is
acknowledged unless nothing in the lane was. -/
theorem push_evicted (hle : lane.entries.length ≤ lane.capacity) {envelope : EvidenceEnvelope}
    {dialect : String} {evicted : HumanLaneEntry} {lane' : HumanLane}
    (hp : lane.push envelope dialect = (some evicted, lane')) :
    evicted ∈ lane.entries ∧ lane.newEntry envelope dialect ∈ lane'.entries ∧
      (evicted.acked = false → ∀ e ∈ lane.entries, e.acked = false) := by
  rcases lane.push_cases envelope dialect hle with ⟨-, h⟩ | ⟨i, x, -, -, hget, hpref, h⟩ <;>
    rw [h] at hp <;> cases hp
  exact ⟨List.mem_of_getElem? hget, List.mem_append_right _ (List.mem_singleton_self _), hpref⟩

/-- **The lane over every run.** It stays within its capacity and every push is held or counted as
evicted; sequences grow along it; what is not acknowledged belongs to the current owner; an
eviction takes an old entry, an acknowledged one if there is one; and the handoff log only grows,
numbered from zero, each shift taking over from the one before.  The operations are any list, the
ones that are refused among them, and the capacity is arbitrary: the constructor raises a zero to
one.  That there is a log and a lane says that no operation panics. -/
theorem humanLane_invariants (capacity : ℕ) (ops : List Op) :
    ∃ log lane, run step (new capacity) ops = some (log, lane) ∧ log.map Prod.fst = ops ∧
      lane.entries.length ≤ max capacity 1 ∧
      pushes log = lane.entries.length + lane.evictedTotal ∧
      lane.evictedTotal = (evictions log).length ∧
      lane.entries.Pairwise (fun e e' => e.sequence < e'.sequence) ∧
      (∀ e ∈ lane.entries, e.acked = false → e.owner = lane.currentOwner) ∧
      (∀ envelope dialect evicted lane', lane.push envelope dialect = (some evicted, lane') →
        evicted ∈ lane.entries ∧
        evicted.sequence ≠ (lane.newEntry envelope dialect).sequence ∧
        lane.newEntry envelope dialect ∈ lane'.entries ∧
        (evicted.acked = false → ∀ e ∈ lane.entries, e.acked = false)) ∧
      lane.handoffLog = handoffs log ∧
      (∀ ops' log' lane', run step lane ops' = some (log', lane') →
        lane.handoffLog <+: lane'.handoffLog) ∧
      (∀ (i : ℕ) (hi : i < lane.handoffLog.length),
        lane.handoffLog[i].handoffSequence = i) ∧
      ∀ (i : ℕ) (hi : i + 1 < lane.handoffLog.length),
        lane.handoffLog[i].nextOwner = lane.handoffLog[i + 1].previousOwner := by
  obtain ⟨log, lane, hrun, -⟩ := run_total (I := fun _ => True)
    (fun lane op _ => let ⟨out, lane', h⟩ := step_total lane op; ⟨out, lane', h, trivial⟩) ops
    (new capacity) trivial
  have h : Kept capacity log lane :=
    run_invariant (kept_new capacity) (fun _ _ _ _ _ h hs => h.step hs) hrun
  refine ⟨log, lane, hrun, run_inputs hrun, h.capacity_eq ▸ h.length_le, h.pushes_eq,
    h.evicted_eq, h.increasing, h.owned, fun envelope dialect evicted lane' hp => ?_, h.log_eq,
    fun ops' log' lane' hrun' => ?_, fun i hi => ?_, fun i hi => ?_⟩
  · obtain ⟨hmem, hnew, hpref⟩ := push_evicted h.length_le hp
    exact ⟨hmem, Nat.ne_of_lt (h.below evicted hmem), hnew, hpref⟩
  · exact run_invariant (P := fun _ s => lane.handoffLog <+: s.handoffLog) List.prefix_rfl
      (fun _ _ _ _ _ hpre hs => hpre.trans (handoffLog_prefix_step hs)) hrun'
  · have hnum := congrArg (·[i]?) h.numbered
    simpa [hi] using hnum
  · exact List.isChain_iff_getElem.mp h.linked i hi

end HumanLane

end Musubi.Northbound
