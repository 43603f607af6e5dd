/-
# `causal_sort` and `annotate_order_unknown`

The two passes of a drain (`store_and_forward.rs`).  `causal_sort` keeps three arrays of one cell
per item -- the clocks, the `emitted` flags and the `slots` the items are taken out of -- and in
each of `n` rounds picks the first item that is not emitted and that no other item not yet emitted
happens before.  An array of `n` cells is a function on `Fin n`, so an index is in range by its
type; the two `expect`s, on the pick and on the slot, are the `none`s.

Section 3 shows that the arrays carry nothing but the list of items that REMAIN
(`SortState.Tracks`), which turns the rounds into `Lib.greedy` on that list.  Everything said
about the order of a drain is then a fact about greedy schedules.

Why the pick succeeds is the heart of it.  The clocks are arbitrary, but what happens before is a
strict order on them (`VectorClock.relation_spec`), so a finite set of items that is not empty has
one that nothing in it happens before.  The greedy choice of the first such item, round after
round, is the least linear extension by arrival; that is proved once, in `Lib.LinearExtension`,
for any relation of this kind.
-/
import Mathlib.Data.List.FinRange
import Mathlib.Logic.Function.Basic
import Musubi.Lib.LinearExtension
import Musubi.Core.VectorClock
import Musubi.Types

namespace Musubi.Core

open Lib

/-! ## 1. The source -/

/-- What the buffer holds: an envelope and the sender's clock when it was made. -/
structure BufferedEnvelope where
  envelope : EvidenceEnvelope
  vc : VectorClock
deriving DecidableEq

/-- What a drain delivers. -/
structure DrainedItem where
  buffered : BufferedEnvelope
  orderUnknown : Bool
deriving DecidableEq

/-- The mutable arrays of `causal_sort`.  A slot is emptied when its item is taken out, so a
second attempt to take it would be the failed `expect`. -/
structure SortState (n : ℕ) where
  emitted : Fin n → Bool
  slots : Fin n → Option BufferedEnvelope
  out : List BufferedEnvelope

variable {n : ℕ}

/-- Some other item that is not emitted happens before item `i`. -/
def hasPendingPred (clocks : Fin n → VectorClock) (emitted : Fin n → Bool) (i : Fin n) : Bool :=
  (List.finRange n).any fun j =>
    j ≠ i && !emitted j && (clocks j).relation (clocks i) = .happensBefore

/-- The first item that is not emitted and has no pending predecessor. -/
def pick (clocks : Fin n → VectorClock) (emitted : Fin n → Bool) : Option (Fin n) :=
  (List.finRange n).find? fun i => !emitted i && !hasPendingPred clocks emitted i

/-- One round: pick, mark as emitted, take out of its slot. -/
def sortRound (clocks : Fin n → VectorClock) (s : SortState n) : Option (SortState n) :=
  match pick clocks s.emitted with
  | none => none
  | some idx =>
    match s.slots idx with
    | none => none
    | some item =>
      some { emitted := Function.update s.emitted idx true
             slots := Function.update s.slots idx none
             out := s.out ++ [item] }

def sortRounds (clocks : Fin n → VectorClock) : ℕ → SortState n → Option (SortState n)
  | 0, s => some s
  | k + 1, s =>
    match sortRound clocks s with
    | none => none
    | some s' => sortRounds clocks k s'

def causalSort (items : List BufferedEnvelope) : Option (List BufferedEnvelope) :=
  let clocks := fun i => (items.get i).vc
  let start : SortState items.length :=
    { emitted := fun _ => false, slots := fun i => some (items.get i), out := [] }
  (sortRounds clocks items.length start).map SortState.out

/-- Flag each item that is concurrent with every other one, when there is another one. -/
def annotateOrderUnknown (items : List BufferedEnvelope) : List DrainedItem :=
  (List.finRange items.length).map fun i =>
    { buffered := items.get i
      orderUnknown := 1 < items.length && (List.finRange items.length).all fun j =>
        j = i || (items.get i).vc.relation (items.get j).vc = .concurrent }

/-! ## 2. The order among the items -/

/-- Item `i` happens before item `j`, by their clocks.  It is irreflexive and transitive, and
equal clocks are not before each other. -/
def HappensBefore (clocks : Fin n → VectorClock) (i j : Fin n) : Prop :=
  (clocks i).relation (clocks j) = .happensBefore

instance (clocks : Fin n → VectorClock) : DecidableRel (HappensBefore clocks) :=
  fun i j => inferInstanceAs (Decidable ((clocks i).relation (clocks j) = .happensBefore))

instance (clocks : Fin n → VectorClock) : Std.Irrefl (HappensBefore clocks) :=
  ⟨fun _ h => lt_irrefl _ (VectorClock.relation_happensBefore_iff.mp h)⟩

instance (clocks : Fin n → VectorClock) : IsTrans (Fin n) (HappensBefore clocks) :=
  ⟨fun _ _ _ hij hjk => VectorClock.relation_happensBefore_iff.mpr
    (lt_trans (VectorClock.relation_happensBefore_iff.mp hij)
      (VectorClock.relation_happensBefore_iff.mp hjk))⟩

/-! ## 3. The arrays against the list of remaining items -/

/-- The indices that are not emitted, in arrival order. -/
def remaining (emitted : Fin n → Bool) : List (Fin n) :=
  (List.finRange n).filter fun i => !emitted i

theorem mem_remaining {emitted : Fin n → Bool} {i : Fin n} :
    i ∈ remaining emitted ↔ emitted i = false := by
  simp [remaining]

/-- Emitting an item erases it from what remains, and leaves the order of the others. -/
theorem remaining_update (emitted : Fin n → Bool) (i : Fin n) :
    remaining (Function.update emitted i true) = (remaining emitted).erase i := by
  have hnd : (remaining emitted).Nodup := (List.nodup_finRange n).filter _
  rw [hnd.erase_eq_filter, remaining, remaining, List.filter_filter]
  refine List.filter_congr fun j _ => ?_
  by_cases h : j = i <;> simp [h]

/-- A pending predecessor is a remaining item that happens before: the item itself, which the
source leaves out, never does. -/
theorem hasPendingPred_iff (clocks : Fin n → VectorClock) (emitted : Fin n → Bool) (i : Fin n) :
    hasPendingPred clocks emitted i = true ↔
      ∃ j ∈ remaining emitted, HappensBefore clocks j i := by
  simp only [hasPendingPred, List.any_eq_true, List.mem_finRange, true_and, Bool.and_eq_true,
    Bool.not_eq_true', decide_eq_true_eq, mem_remaining]
  constructor
  · rintro ⟨j, ⟨-, he⟩, hr⟩
    exact ⟨j, he, hr⟩
  · rintro ⟨j, he, hr⟩
    exact ⟨j, ⟨fun hji => irrefl_of (HappensBefore clocks) i (hji ▸ hr), he⟩, hr⟩

/-- **The pick is the first minimal remaining item.** -/
theorem pick_eq (clocks : Fin n → VectorClock) (emitted : Fin n → Bool) :
    pick clocks emitted = firstMinimal (HappensBefore clocks) (remaining emitted) := by
  have hready : ∀ i, (!hasPendingPred clocks emitted i) =
      decide (∀ j ∈ remaining emitted, ¬ HappensBefore clocks j i) := by
    intro i
    rw [Bool.eq_iff_iff, Bool.not_eq_true', decide_eq_true_iff, ← Bool.not_eq_true,
      hasPendingPred_iff, not_exists]
    simp only [not_and]
  simp only [pick, hready, firstMinimal]
  conv_rhs => arg 2; rw [remaining]
  rw [List.find?_filter]
  congr 1
  funext i
  simp only [Bool.decide_and, Bool.decide_eq_true]
  congr

/-- **At every step something is ready.**  Whatever has been emitted, as long as an item is
left the pick succeeds, on an item that no remaining item happens before. -/
theorem pick_ready (clocks : Fin n → VectorClock) (emitted : Fin n → Bool)
    (h : ∃ i, emitted i = false) :
    ∃ i, pick clocks emitted = some i ∧ emitted i = false ∧
      ∀ j, emitted j = false → ¬ HappensBefore clocks j i := by
  obtain ⟨i₀, hi₀⟩ := h
  obtain ⟨i, hi⟩ := firstMinimal_isSome (r := HappensBefore clocks)
    (List.ne_nil_of_mem (mem_remaining.mpr hi₀))
  refine ⟨i, (pick_eq clocks emitted).trans hi, mem_remaining.mp (firstMinimal_mem hi), ?_⟩
  exact fun j hj => firstMinimal_minimal hi j (mem_remaining.mpr hj)

/-- The slots hold exactly the items that are not emitted, so the two arrays say the same and no
slot that is picked is empty. -/
def SortState.Tracks (s : SortState n) (items : Fin n → BufferedEnvelope) : Prop :=
  ∀ i, s.slots i = if s.emitted i then none else some (items i)

/-- A round on a tracked state takes the picked item out.  The item is still there to be taken
because it was not emitted, so the `take` of the code does not fail. -/
theorem sortRound_eq {items : Fin n → BufferedEnvelope} {s : SortState n}
    (hs : s.Tracks items) {i : Fin n}
    (hi : pick (fun i => (items i).vc) s.emitted = some i) (he : s.emitted i = false) :
    ∃ s', sortRound (fun i => (items i).vc) s = some s' ∧ s'.Tracks items ∧
      remaining s'.emitted = (remaining s.emitted).erase i ∧ s'.out = s.out ++ [items i] := by
  have hslot : s.slots i = some (items i) := by rw [hs i, he]; rfl
  refine ⟨{ emitted := Function.update s.emitted i true
            slots := Function.update s.slots i none
            out := s.out ++ [items i] }, ?_, fun j => ?_, remaining_update _ _, rfl⟩
  · rw [sortRound, hi]
    simp only [hslot]
  dsimp only
  by_cases h : j = i
  · subst h
    simp
  · simp only [Function.update_of_ne h]
    exact hs j

/-- **The rounds run the greedy schedule on the remaining items.** -/
theorem sortRounds_eq {items : Fin n → BufferedEnvelope} {k : ℕ} :
    ∀ {s : SortState n} {σ : List (Fin n)}, s.Tracks items →
      greedy (HappensBefore fun i => (items i).vc) k (remaining s.emitted) = some σ →
      ∃ s', sortRounds (fun i => (items i).vc) k s = some s' ∧
        s'.out = s.out ++ σ.map items := by
  induction k with
  | zero =>
    intro s σ _ hg
    obtain rfl : [] = σ := Option.some.inj hg
    exact ⟨s, rfl, by rw [List.map_nil, List.append_nil]⟩
  | succ k ih =>
    intro s σ hs hg
    simp only [greedy] at hg
    split at hg
    · cases hg
    · rename_i i hi
      obtain ⟨τ, hτ, rfl⟩ := Option.map_eq_some_iff.mp hg
      have hpick : pick (fun i => (items i).vc) s.emitted = some i := (pick_eq _ _).trans hi
      obtain ⟨s₁, hr, hs₁, hrem, hout⟩ :=
        sortRound_eq hs hpick (mem_remaining.mp (firstMinimal_mem hi))
      rw [← hrem] at hτ
      obtain ⟨s', hrs, hout'⟩ := ih hs₁ hτ
      refine ⟨s', by simp only [sortRounds, hr, hrs], ?_⟩
      rw [hout', hout, List.append_assoc, List.map_cons, List.singleton_append]

/-! ## 4. What `causal_sort` computes -/

/-- **`causal_sort` returns the items along the least linear extension of their causal
order.** -/
theorem causalSort_eq (items : List BufferedEnvelope) :
    ∃ σ : List (Fin items.length), causalSort items = some (σ.map items.get) ∧
      LinearExtension (HappensBefore fun i => (items.get i).vc) (List.finRange items.length) σ ∧
      ∀ τ, LinearExtension (HappensBefore fun i => (items.get i).vc)
        (List.finRange items.length) τ → LexLE σ τ := by
  obtain ⟨σ, hσ, hext, hleast⟩ := greedy_spec (r := HappensBefore fun i => (items.get i).vc)
    items.length (List.finRange items.length) (List.length_finRange) (List.pairwise_lt_finRange _)
  have hrem : remaining (fun _ : Fin items.length => false) = List.finRange items.length :=
    List.filter_eq_self.mpr fun _ _ => rfl
  rw [← hrem] at hσ
  have htracks : SortState.Tracks
      { emitted := fun _ => false, slots := fun i => some (items.get i), out := [] } items.get :=
    fun _ => rfl
  obtain ⟨s', hs', hout⟩ := sortRounds_eq htracks hσ
  refine ⟨σ, ?_, hext, hleast⟩
  simp only [causalSort, hs', Option.map_some, hout, List.nil_append]

/-- A schedule of all indices lists all the items, in some order: looking up is a map, and a map
keeps permutations. -/
theorem map_get_perm {items : List BufferedEnvelope} {σ : List (Fin items.length)}
    (h : σ.Perm (List.finRange items.length)) : (σ.map items.get).Perm items := by
  have h1 := h.map items.get
  rwa [List.map_get_finRange] at h1

/-- **The causal ordering of a drain, in full.** No step panics; the output lists the items, each
one once; an item stands before the items it happens before; and no other linear extension of the
causal order is smaller by arrival.  The items are compared by their places and not as values,
since two of them may be equal; so the output is a list `σ` of places, and the orders that it is
compared with are permutations of all places that keep what happens before. -/
theorem causalSort_least_extension (items : List BufferedEnvelope) :
    (∀ emitted : Fin items.length → Bool, (∃ i, emitted i = false) →
      ∃ i, pick (fun i => (items.get i).vc) emitted = some i ∧ emitted i = false ∧
        ∀ j, emitted j = false → (items.get j).vc.relation (items.get i).vc ≠ .happensBefore) ∧
    ∃ σ : List (Fin items.length), causalSort items = some (σ.map items.get) ∧
      σ.Perm (List.finRange items.length) ∧ (σ.map items.get).Perm items ∧
      (∀ (p q : ℕ) (hp : p < σ.length) (hq : q < σ.length),
        (items.get σ[p]).vc.relation (items.get σ[q]).vc = .happensBefore → p < q) ∧
      ∀ τ : List (Fin items.length), τ.Perm (List.finRange items.length) →
        (∀ (p q : ℕ) (hp : p < τ.length) (hq : q < τ.length),
          (items.get τ[p]).vc.relation (items.get τ[q]).vc = .happensBefore → p < q) →
        LexLE σ τ := by
  refine ⟨fun emitted h => pick_ready _ emitted h, ?_⟩
  obtain ⟨σ, hσ, hext, hleast⟩ := causalSort_eq items
  refine ⟨σ, hσ, hext.perm, map_get_perm hext.perm, fun p q hp hq hr => ?_, fun τ hτ hord => ?_⟩
  · exact hext.place_lt hp hq hr
  · refine hleast τ ⟨hτ, List.pairwise_iff_getElem.mpr fun p q hp hq hpq hr => ?_⟩
    exact absurd (hord q p hq hp hr) (not_lt_of_gt hpq)

end Musubi.Core
