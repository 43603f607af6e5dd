/-
# Which orders a drain claims to know

A drain lists its items in one line, and `order_unknown` is what tells a consumer that the place
of an item in the line means nothing.  Two concurrent items of which NEITHER is flagged are
therefore shown in an order nobody observed.

The flag is set on an item that is concurrent with every other one.  That covers a set of
concurrent items and a chain with isolated intruders, and it misses the case of two chains side by
side: every item then has a comparable partner, and no item is flagged.  The exact condition is
that the pending items are ONE chain and isolated items around it (`ChainAndFloaters`), and this
is what the module proves.

The condition looks at what is pending before the drain and at its clocks only.  One direction
takes the unflagged items of a drain for the chain and the flagged ones for the floaters; the
other uses that an item with a comparable partner lies in the chain, so that two unflagged items
are both in it.  Neither direction depends on the order in which the items come out, so the sort
enters as a permutation and as nothing more.

Section 4 runs the smallest case in which the promise fails: two updates of one source, two of
another, and a drain.
-/
import Mathlib.Data.List.Pairwise
import Mathlib.Data.List.Perm.Subperm
import Musubi.Core.Accounting

namespace Musubi.Core

open Lib
open StoreAndForwardBuffer

/-! ## 1. The promise and the condition -/

def Concurrent (x y : BufferedEnvelope) : Prop := x.vc.relation y.vc = .concurrent

theorem Concurrent.symm {x y : BufferedEnvelope} (h : Concurrent x y) : Concurrent y x :=
  VectorClock.relation_concurrent_comm.mp h

instance : Std.Symm fun x y => ¬ Concurrent x y := ⟨fun _ _ h hc => h hc.symm⟩

theorem not_concurrent_self (x : BufferedEnvelope) : ¬ Concurrent x x :=
  VectorClock.relation_self_ne_concurrent _

/-- No two concurrent items are delivered with both their orders presented as known.  One flag is
enough: it says that the place of the flagged item means nothing. -/
def OrderNotInvented (items : List DrainedItem) : Prop :=
  ∀ (p q : ℕ) (hp : p < items.length) (hq : q < items.length),
    Concurrent items[p].buffered items[q].buffered →
      items[p].orderUnknown = true ∨ items[q].orderUnknown = true

/-- The items split into a chain, any two of which are comparable, and floaters, each of which
is concurrent with every other item. -/
def ChainAndFloaters (items : List BufferedEnvelope) : Prop :=
  ∃ chain floaters, items.Perm (chain ++ floaters) ∧
    chain.Pairwise (fun x y => ¬ Concurrent x y) ∧ floaters.Pairwise Concurrent ∧
    ∀ x ∈ chain, ∀ f ∈ floaters, Concurrent x f

/-! ## 2. The flag of one item -/

theorem length_annotateOrderUnknown (items : List BufferedEnvelope) :
    (annotateOrderUnknown items).length = items.length := by
  rw [annotateOrderUnknown, List.length_map, List.length_finRange]

theorem getElem_annotateOrderUnknown_buffered {items : List BufferedEnvelope} {p : ℕ}
    (hp : p < items.length) (hp' : p < (annotateOrderUnknown items).length) :
    (annotateOrderUnknown items)[p].buffered = items[p] := by
  simp [annotateOrderUnknown]

/-- **An item is flagged when there are others and it is concurrent with all of them.** -/
theorem getElem_annotateOrderUnknown_orderUnknown {items : List BufferedEnvelope} {p : ℕ}
    (hp : p < items.length) (hp' : p < (annotateOrderUnknown items).length) :
    (annotateOrderUnknown items)[p].orderUnknown = true ↔
      1 < items.length ∧ ∀ y ∈ items.eraseIdx p, Concurrent items[p] y := by
  simp only [annotateOrderUnknown, List.getElem_map, List.getElem_finRange, Fin.cast_mk,
    List.get_eq_getElem, Bool.and_eq_true, decide_eq_true_eq, List.all_eq_true, Bool.or_eq_true,
    List.mem_finRange, forall_const, List.mem_eraseIdx_iff_getElem]
  refine and_congr_right fun _ => ⟨?_, ?_⟩
  · rintro h y ⟨j, hj, hne, rfl⟩
    exact (h ⟨j, hj⟩).resolve_left fun he => hne (congrArg Fin.val he)
  · intro h j
    by_cases hj : j = ⟨p, hp⟩
    · exact Or.inl hj
    · exact Or.inr (h _ ⟨j, j.isLt, fun he => hj (Fin.ext he), rfl⟩)

/-- A flagged item is concurrent with the items at all other places. -/
theorem concurrent_of_orderUnknown {items : List BufferedEnvelope} {p q : ℕ}
    (hp : p < (annotateOrderUnknown items).length) (hq : q < (annotateOrderUnknown items).length)
    (hpq : p ≠ q) (hflag : (annotateOrderUnknown items)[p].orderUnknown = true) :
    Concurrent (annotateOrderUnknown items)[p].buffered
      (annotateOrderUnknown items)[q].buffered := by
  have hp' : p < items.length := length_annotateOrderUnknown items ▸ hp
  have hq' : q < items.length := length_annotateOrderUnknown items ▸ hq
  rw [getElem_annotateOrderUnknown_buffered hp' hp, getElem_annotateOrderUnknown_buffered hq' hq]
  refine ((getElem_annotateOrderUnknown_orderUnknown hp' hp).mp hflag).2 _ ?_
  exact List.mem_eraseIdx_iff_getElem.mpr ⟨q, hq', hpq.symm, rfl⟩

/-! ## 3. When no order is invented -/

/-- If no order is invented, the unflagged items are a chain and the flagged ones float. -/
theorem chainAndFloaters_of_orderNotInvented {items : List BufferedEnvelope}
    (h : OrderNotInvented (annotateOrderUnknown items)) : ChainAndFloaters items := by
  have hperm := (List.filter_append_perm DrainedItem.orderUnknown
    (annotateOrderUnknown items)).symm.map DrainedItem.buffered
  rw [map_buffered_annotateOrderUnknown, List.map_append] at hperm
  refine ⟨_, _, hperm.trans List.perm_append_comm, ?_, ?_, ?_⟩
  · -- the chain: two unflagged items are comparable, as no order is invented
    rw [List.pairwise_map]
    have hpair : (annotateOrderUnknown items).Pairwise fun x y =>
        Concurrent x.buffered y.buffered → x.orderUnknown = true ∨ y.orderUnknown = true :=
      List.pairwise_iff_getElem.mpr fun p q hp hq _ => h p q hp hq
    refine (hpair.filter _).imp_of_mem fun {x y} hx hy hxy hc => ?_
    have hx' := (List.mem_filter.mp hx).2
    have hy' := (List.mem_filter.mp hy).2
    rcases hxy hc with hf | hf <;> simp_all
  · -- the floaters: a flagged item is concurrent with everything else
    rw [List.pairwise_map]
    have hpair : (annotateOrderUnknown items).Pairwise fun x y =>
        x.orderUnknown = true → Concurrent x.buffered y.buffered :=
      List.pairwise_iff_getElem.mpr fun p q hp hq hpq =>
        concurrent_of_orderUnknown hp hq (Nat.ne_of_lt hpq)
    exact (hpair.filter _).imp_of_mem fun hx _ hxy => hxy (List.mem_filter.mp hx).2
  · intro x hx f hf
    obtain ⟨a, ha, rfl⟩ := List.mem_map.mp hx
    obtain ⟨b, hb, rfl⟩ := List.mem_map.mp hf
    obtain ⟨ha, hna⟩ := List.mem_filter.mp ha
    obtain ⟨hb, hnb⟩ := List.mem_filter.mp hb
    obtain ⟨p, hp, rfl⟩ := List.getElem_of_mem ha
    obtain ⟨q, hq, rfl⟩ := List.getElem_of_mem hb
    refine (concurrent_of_orderUnknown hq hp ?_ hnb).symm
    rintro rfl
    simp [hnb] at hna

/-- A floater is concurrent with the items at all other places. -/
theorem concurrent_of_mem_floaters {items chain floaters : List BufferedEnvelope}
    (hperm : items.Perm (chain ++ floaters)) (hfl : floaters.Pairwise Concurrent)
    (hcross : ∀ x ∈ chain, ∀ f ∈ floaters, Concurrent x f) {p : ℕ} (hp : p < items.length)
    (hx : items[p] ∈ floaters) : ∀ y ∈ items.eraseIdx p, Concurrent items[p] y := by
  have hsplit : floaters.Perm (items[p] :: floaters.erase items[p]) := List.perm_cons_erase hx
  have hrest : (items.eraseIdx p).Perm (chain ++ floaters.erase items[p]) := by
    refine List.Perm.cons_inv (a := items[p]) ?_
    calc (items[p] :: items.eraseIdx p).Perm items := List.getElem_cons_eraseIdx_perm hp
      List.Perm _ (chain ++ floaters) := hperm
      List.Perm _ (chain ++ items[p] :: floaters.erase items[p]) := hsplit.append_left chain
      List.Perm _ (items[p] :: (chain ++ floaters.erase items[p])) := List.perm_middle
  have hpair := (hsplit.pairwise_iff fun h => h.symm).mp hfl
  intro y hy
  rcases List.mem_append.mp (hrest.mem_iff.mp hy) with hy | hy
  · exact (hcross y hy _ hx).symm
  · exact List.rel_of_pairwise_cons hpair hy

/-- One chain and floaters: of two concurrent items one floats, and it is flagged. -/
theorem orderNotInvented_of_chainAndFloaters {items : List BufferedEnvelope}
    (h : ChainAndFloaters items) : OrderNotInvented (annotateOrderUnknown items) := by
  obtain ⟨chain, floaters, hperm, hchain, hfl, hcross⟩ := h
  intro p q hp hq hc
  have hp' : p < items.length := length_annotateOrderUnknown items ▸ hp
  have hq' : q < items.length := length_annotateOrderUnknown items ▸ hq
  rw [getElem_annotateOrderUnknown_buffered hp' hp,
    getElem_annotateOrderUnknown_buffered hq' hq] at hc
  have hpq : p ≠ q := by
    rintro rfl
    exact not_concurrent_self _ hc
  have hlen : 1 < items.length := by omega
  rw [getElem_annotateOrderUnknown_orderUnknown hp' hp,
    getElem_annotateOrderUnknown_orderUnknown hq' hq]
  rcases List.mem_append.mp (hperm.mem_iff.mp (List.getElem_mem hp')) with hx | hx
  · rcases List.mem_append.mp (hperm.mem_iff.mp (List.getElem_mem hq')) with hy | hy
    · exact absurd hc (hchain.forall_of_forall (fun z _ => not_concurrent_self z) hx hy)
    · exact Or.inr ⟨hlen, concurrent_of_mem_floaters hperm hfl hcross hq' hy⟩
  · exact Or.inl ⟨hlen, concurrent_of_mem_floaters hperm hfl hcross hp' hx⟩

/-- The condition does not look at the order of the items. -/
theorem ChainAndFloaters.perm {items items' : List BufferedEnvelope} (h : items.Perm items') :
    ChainAndFloaters items ↔ ChainAndFloaters items' := by
  constructor
  · rintro ⟨chain, floaters, hperm, hrest⟩
    exact ⟨chain, floaters, h.symm.trans hperm, hrest⟩
  · rintro ⟨chain, floaters, hperm, hrest⟩
    exact ⟨chain, floaters, h.trans hperm, hrest⟩

/-- **A drain invents no order exactly when one chain and floaters are pending.** After any run
that leaves the link up, the drain returns what is pending, and no two concurrent items come out
unflagged if and only if what was pending is one chain and floaters around it.  The clocks of the
envelopes are arbitrary; a buffer fed by one source, or by any sources whose updates have all been
seen by each other, meets the condition. -/
theorem drain_orderNotInvented_iff (sha256 : List UInt8 → Digest) (initial : LinkState)
    (capacity replayWindowCap : ℕ) (ops : List Op) :
    ∃ log b, run (StoreAndForwardBuffer.step sha256)
        (withCapacity initial capacity replayWindowCap) ops = some (log, b) ∧
      log.map Prod.fst = ops ∧
      (b.link = .up → ∃ items b', b.drain = some (items, b') ∧
        (items.map DrainedItem.buffered).Perm b.pending ∧
        (OrderNotInvented items ↔ ChainAndFloaters b.pending)) := by
  obtain ⟨log, b, hrun, hops, -⟩ :=
    run_accounted sha256 initial capacity replayWindowCap ops
  refine ⟨log, b, hrun, hops, fun hup => ?_⟩
  obtain ⟨sorted, -, hperm, hdrain⟩ := drain_up (b := b) (by rw [hup]; decide)
  refine ⟨_, _, hdrain, ?_, ?_⟩
  · rw [map_buffered_annotateOrderUnknown]
    exact hperm
  · rw [← ChainAndFloaters.perm hperm]
    exact ⟨chainAndFloaters_of_orderNotInvented, orderNotInvented_of_chainAndFloaters⟩

/-! ## 4. Two chains side by side -/

/-- The pinned sample, seen by another platform. -/
def seenBy (platformId : String) : EvidenceEnvelope :=
  { goldenSample with
    observation := .platformState
      { platformId := platformId
        position := none
        mode := none
        timestamps := { observedAt := none, receivedAt := 0, timeConfidence := ⟨0x3E4CCCCD⟩ }
        platformDomain := .unknown } }

/-- Two updates of one source and two of another, with nothing between the sources. -/
def twoChains : List Op :=
  [.push (seenBy "A1") (VectorClock.single "alpha" 1),
    .push (seenBy "A2") (VectorClock.single "alpha" 2),
    .push (seenBy "B1") (VectorClock.single "beta" 1),
    .push (seenBy "B2") (VectorClock.single "beta" 2)]

/-- What a drain delivers after the four pushes: no item is flagged. -/
def twoChainsDelivered : List DrainedItem :=
  [⟨⟨seenBy "A1", VectorClock.single "alpha" 1⟩, false⟩,
    ⟨⟨seenBy "A2", VectorClock.single "alpha" 2⟩, false⟩,
    ⟨⟨seenBy "B1", VectorClock.single "beta" 1⟩, false⟩,
    ⟨⟨seenBy "B2", VectorClock.single "beta" 2⟩, false⟩]

/-- **The flag misses two concurrent chains.**  All four updates are delivered as if their
order were known. -/
theorem twoChains_order_invented :
    ¬ ∀ (ops : List Op) (log : Log) (b b' : StoreAndForwardBuffer) (items : List DrainedItem),
      run (StoreAndForwardBuffer.step Sha256.hash) (StoreAndForwardBuffer.new .up) ops =
        some (log, b) → b.link = .up → b.drain = some (items, b') → OrderNotInvented items := by
  intro h
  have hd : ((run (StoreAndForwardBuffer.step Sha256.hash) (StoreAndForwardBuffer.new .up)
      twoChains).bind fun r => r.2.drain.map fun d => (r.2.link, d.1)) =
      some (.up, twoChainsDelivered) := by decide +kernel
  obtain ⟨⟨log, b⟩, hrun, hb⟩ := Option.bind_eq_some_iff.mp hd
  obtain ⟨⟨items, b'⟩, hdrain, hitems⟩ := Option.map_eq_some_iff.mp hb
  obtain ⟨hup, rfl⟩ := Prod.mk.inj hitems
  have hc : Concurrent ⟨seenBy "A1", VectorClock.single "alpha" 1⟩
      ⟨seenBy "B1", VectorClock.single "beta" 1⟩ := by unfold Concurrent; decide
  rcases h twoChains log b b' _ hrun hup hdrain 0 2 (by decide) (by decide) hc with hf | hf <;>
    cases hf

end Musubi.Core
