/-
# What a drain owes to arrival

The order of arrival breaks ties between items that neither happens before the other, and it does
nothing else.  The flag of an item is decided by which items there are, so a permutation of the
arrivals changes the places of the items and nothing about them; and what happens before stands
before, however the items came.

The source decides the flag of an item by its place: it compares the clock of the item at `p` with
the clocks at all other places.  Where all items are distinct the other places are the other
items, and the flag is a function of the item and of the set (`isolated`).  From there two arrival
orders of one set are two permutations of one list of flagged items.

The pushes are part of the statement, since they could drop or refuse an item: `run_pushOps` says
that items with keys of their own, for which there is room, are all pending afterwards.
`Delivers` is the whole of it: pushes, the link up, and one drain.
-/
import Musubi.Core.OrderUnknown

namespace Musubi.Core

open Lib

namespace StoreAndForwardBuffer

/-! ## 1. Flags without places -/

/-- The flag of an item among others, all of them distinct. -/
def isolated (items : List BufferedEnvelope) (x : BufferedEnvelope) : Bool :=
  1 < items.length ∧ ∀ y ∈ items, y ≠ x → x.vc.relation y.vc = .concurrent

theorem isolated_perm {items items' : List BufferedEnvelope} (h : items.Perm items') :
    isolated items = isolated items' := by
  funext x
  unfold isolated
  rw [h.length_eq]
  exact decide_eq_decide.mpr (and_congr_right fun _ => forall_congr' fun y => by rw [h.mem_iff])

/-- Among distinct items, the items at the other places are the other items. -/
theorem annotateOrderUnknown_eq {items : List BufferedEnvelope} (hnodup : items.Nodup) :
    annotateOrderUnknown items = items.map fun x => ⟨x, isolated items x⟩ := by
  refine List.ext_getElem (by simp [length_annotateOrderUnknown]) fun p hp hp' => ?_
  have hlt : p < items.length := length_annotateOrderUnknown items ▸ hp
  have hbuffered := getElem_annotateOrderUnknown_buffered hlt hp
  have hflag := getElem_annotateOrderUnknown_orderUnknown hlt hp
  have hrest : (∀ y ∈ items.eraseIdx p, Concurrent items[p] y) ↔
      ∀ y ∈ items, y ≠ items[p] → Concurrent items[p] y := by
    simp only [← hnodup.erase_getElem p hlt, hnodup.mem_erase_iff, and_imp]
    exact forall_congr' fun y => forall_comm
  rw [List.getElem_map]
  rw [hrest] at hflag
  have horder : (annotateOrderUnknown items)[p].orderUnknown = isolated items items[p] := by
    rw [Bool.eq_iff_iff, hflag, isolated, decide_eq_true_iff]
    rfl
  rw [← hbuffered] at horder ⊢
  rw [← horder]

/-! ## 2. Pushes that are all accepted -/

def pushOp (x : BufferedEnvelope) : Op := .push x.envelope x.vc

variable (sha256 : List UInt8 → Digest)

/-- The replay key of an item. -/
def key (x : BufferedEnvelope) : Digest := replayKey sha256 x.envelope

/-- Items with keys of their own, for which there is room, are all pending in the order in which
they came. -/
theorem run_pushOps {items : List BufferedEnvelope} : ∀ {b : StoreAndForwardBuffer},
    (items.map (key sha256)).Nodup → (∀ x ∈ items, key sha256 x ∉ b.replayWindow) →
      b.pending.length + items.length ≤ b.capacity →
      ∃ log b', run (StoreAndForwardBuffer.step sha256) b (items.map pushOp) = some (log, b') ∧
        b'.pending = b.pending ++ items := by
  induction items with
  | nil => exact fun _ _ _ => ⟨_, _, rfl, (List.append_nil _).symm⟩
  | cons x items ih =>
    intro b hdistinct hnew hroom
    rw [List.map_cons, List.nodup_cons] at hdistinct
    rw [List.length_cons] at hroom
    rcases push_cases sha256 b x.envelope x.vc with
      ⟨hkey, -⟩ | ⟨-, -, hpush⟩ | ⟨_, _, -, hfull, -, -⟩
    · exact absurd hkey (hnew x List.mem_cons_self)
    · have hnew' : ∀ y ∈ items, key sha256 y ∉ pushBack b.replayWindowCap b.replayWindow
          (key sha256 x) := by
        intro y hy hmem
        rcases mem_pushBack hmem with hmem | heq
        · exact hnew y (List.mem_cons_of_mem _ hy) hmem
        · exact hdistinct.1 (heq ▸ List.mem_map_of_mem hy)
      obtain ⟨log, b', hrun, hpending⟩ := @ih { b.rememberKey (key sha256 x) with
        pending := b.pending ++ [x] } hdistinct.2 hnew' (by
          dsimp only
          rw [List.length_append, List.length_singleton, rememberKey_capacity]
          omega)
      refine ⟨(pushOp x, .pushed .accepted) :: log, b', ?_, ?_⟩
      · rw [List.map_cons, run_cons_eq_some]
        exact ⟨_, _, log, by rw [pushOp, step, hpush]; rfl, hrun, rfl⟩
      · rw [hpending, List.append_assoc, List.singleton_append]
    · omega

/-! ## 3. Drains -/

theorem causalSort_ordered {items sorted : List BufferedEnvelope}
    (h : causalSort items = some sorted) :
    sorted.Pairwise fun x y => y.vc.relation x.vc ≠ .happensBefore := by
  obtain ⟨σ, hσ, hext, -⟩ := causalSort_eq items
  rw [hσ, Option.some_inj] at h
  rw [← h]
  exact List.pairwise_map.mpr hext.ordered

/-- A drain after some pushes, with the link up: the pushes make a log, and the drain that follows
them returns `out`. -/
def Delivers (b : StoreAndForwardBuffer) (items : List BufferedEnvelope) (out : List DrainedItem) :
    Prop :=
  ∃ log b₁ b₂, run (StoreAndForwardBuffer.step sha256) b (items.map pushOp) = some (log, b₁) ∧
    (b₁.setLink .up).drain = some (out, b₂)

/-- What a drain delivers of distinct items: each with its flag, in causal order.  The flag of an
item is a function of the set, so it does not depend on how the items arrived. -/
structure InCausalOrder (items : List BufferedEnvelope) (out : List DrainedItem) : Prop where
  perm : out.Perm (items.map fun x => ⟨x, isolated items x⟩)
  ordered : out.Pairwise fun x y => y.buffered.vc.relation x.buffered.vc ≠ .happensBefore

theorem delivers_causalOrder {b : StoreAndForwardBuffer} (hpending : b.pending = [])
    {items : List BufferedEnvelope} (hdistinct : (items.map (key sha256)).Nodup)
    (hnew : ∀ x ∈ items, key sha256 x ∉ b.replayWindow) (hfits : items.length ≤ b.capacity) :
    ∃ out, Delivers sha256 b items out ∧ InCausalOrder items out := by
  obtain ⟨log, b₁, hrun, hitems⟩ := run_pushOps sha256 hdistinct hnew (by simpa [hpending])
  rw [hpending, List.nil_append] at hitems
  obtain ⟨sorted, hsorted, hperm, hdrain⟩ := drain_up (b := b₁.setLink .up) (by simp [setLink])
  have hlink : (b₁.setLink .up).pending = items := hitems
  rw [hlink] at hsorted hperm
  have hnodup : items.Nodup := hdistinct.of_map
  have hout := annotateOrderUnknown_eq (hperm.nodup_iff.mpr hnodup)
  refine ⟨_, ⟨log, b₁, _, hrun, hdrain⟩, ?_, ?_⟩
  · rw [hout, isolated_perm hperm]
    exact hperm.map _
  · rw [hout]
    exact List.pairwise_map.mpr (causalSort_ordered hsorted)

/-- What happens before stands before. -/
theorem InCausalOrder.idxOf_lt {items : List BufferedEnvelope} {out : List DrainedItem}
    (h : InCausalOrder items out) {x y : DrainedItem} (hx : x ∈ out) (hy : y ∈ out)
    (hbefore : x.buffered.vc.relation y.buffered.vc = .happensBefore) :
    out.idxOf x < out.idxOf y := by
  have hxlt := List.idxOf_lt_length_of_mem hx
  have hylt := List.idxOf_lt_length_of_mem hy
  have hgetx : out[out.idxOf x] = x := List.getElem_idxOf hxlt
  have hgety : out[out.idxOf y] = y := List.getElem_idxOf hylt
  rcases Nat.lt_trichotomy (out.idxOf x) (out.idxOf y) with hlt | heq | hgt
  · exact hlt
  · have hxy : x = y := by
      rw [← hgetx, ← hgety]
      simp only [heq]
    rw [hxy, VectorClock.relation_happensBefore_iff] at hbefore
    exact absurd hbefore (lt_irrefl _)
  · have hpair := List.pairwise_iff_getElem.mp h.ordered _ _ hylt hxlt hgt
    rw [hgetx, hgety] at hpair
    exact absurd hbefore hpair

/-- An item is flagged when there is another and it is concurrent with every other. -/
theorem InCausalOrder.orderUnknown_iff {items : List BufferedEnvelope} {out : List DrainedItem}
    (h : InCausalOrder items out) {x : DrainedItem} (hx : x ∈ out) :
    x.orderUnknown = true ↔ 2 ≤ out.length ∧
      ∀ y ∈ out, y ≠ x → x.buffered.vc.relation y.buffered.vc = .concurrent := by
  have hlength : out.length = items.length := by
    rw [h.perm.length_eq, List.length_map]
  obtain ⟨a, ha, rfl⟩ := List.mem_map.mp (h.perm.mem_iff.mp hx)
  simp only [h.perm.mem_iff, List.mem_map, isolated, decide_eq_true_iff, hlength]
  refine and_congr_right fun _ => ⟨?_, ?_⟩
  · rintro hall _ ⟨y, hy, rfl⟩ hne
    exact hall y hy fun heq => hne (by rw [heq])
  · intro hall y hy hne
    have hother := hall _ ⟨y, hy, rfl⟩ fun heq => hne (congrArg DrainedItem.buffered heq)
    exact hother

/-- **Arrival breaks ties and nothing else.** Two orders of pushing one set of envelopes, each
with a replay key of its own and all of them fitting, are drained to the same items with the same
flags; related items stand in the same order; and a flag says that there is another item and that
all of them are concurrent with the one flagged.  The buffer may have any history, as long as
nothing is pending and none of the keys is remembered; otherwise one of the two orders could lose
an item that the other keeps. -/
theorem drain_arrival_order {b : StoreAndForwardBuffer} (hpending : b.pending = [])
    {items items' : List BufferedEnvelope} (hperm : items'.Perm items)
    (hdistinct : (items.map fun x => replayKey sha256 x.envelope).Nodup)
    (hnew : ∀ x ∈ items, replayKey sha256 x.envelope ∉ b.replayWindow)
    (hfits : items.length ≤ b.capacity) :
    ∃ out out', Delivers sha256 b items out ∧ Delivers sha256 b items' out' ∧
      out'.Perm out ∧ (out.map DrainedItem.buffered).Perm items ∧
      (∀ x ∈ out, ∀ y ∈ out, x.buffered.vc.relation y.buffered.vc = .happensBefore →
        out.idxOf x < out.idxOf y ∧ out'.idxOf x < out'.idxOf y) ∧
      ∀ x ∈ out, x.orderUnknown = true ↔ 2 ≤ out.length ∧
        ∀ y ∈ out, y ≠ x → x.buffered.vc.relation y.buffered.vc = .concurrent := by
  obtain ⟨out, hdelivers, hout⟩ := delivers_causalOrder sha256 hpending hdistinct hnew hfits
  obtain ⟨out', hdelivers', hout'⟩ := delivers_causalOrder sha256 hpending
    ((hperm.map _).nodup_iff.mpr hdistinct) (fun x hx => hnew x (hperm.mem_iff.mp hx))
    (hperm.length_eq ▸ hfits)
  have hsame : out'.Perm out := by
    refine hout'.perm.trans (.trans ?_ hout.perm.symm)
    rw [isolated_perm hperm]
    exact hperm.map _
  refine ⟨out, out', hdelivers, hdelivers', hsame, ?_, fun x hx y hy h => ⟨?_, ?_⟩,
    fun x hx => hout.orderUnknown_iff hx⟩
  · have hmap := hout.perm.map DrainedItem.buffered
    rw [List.map_map] at hmap
    exact hmap.trans (List.map_id _ ▸ List.Perm.refl _)
  · exact hout.idxOf_lt hx hy h
  · exact hout'.idxOf_lt (hsame.mem_iff.mpr hx) (hsame.mem_iff.mpr hy) h

/-- Two updates of one source with one of another between them. -/
def intruder : List BufferedEnvelope :=
  [⟨seenBy "A", .single "alpha" 1⟩, ⟨seenBy "B", .single "beta" 1⟩,
    ⟨seenBy "C", .single "alpha" 2⟩]

theorem drain_arrival_order_intruder :
    ∃ out out', Delivers Sha256.hash (.new .down) intruder out ∧
      Delivers Sha256.hash (.new .down) intruder.reverse out' ∧ out'.Perm out := by
  obtain ⟨out, out', h, h', hperm, -⟩ := @drain_arrival_order Sha256.hash (.new .down) rfl
    intruder intruder.reverse intruder.reverse_perm (by decide +kernel)
    (by simp [new, withCapacity]) (by decide)
  exact ⟨out, out', h, h', hperm⟩

end StoreAndForwardBuffer

end Musubi.Core
